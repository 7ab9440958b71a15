import InVehicle.Patterns
import InVehicle.TextCodecs
import Mathlib.Data.List.DropRight

/-!
# Prompts of a serial shell

What `SerialDeviceShell` takes for a prompt in the text that it has read last.
-/

set_option autoImplicit false

namespace InVehicle.SerialPrompts
open InVehicle.TextCodecs InVehicle.Patterns

def passwordPrompt : Text := "Password:".toList

def isPasswordPrompt (str : Text) : Bool := decide (passwordPrompt <:+: str)

def isLoginPrompt (str : Text) : Bool :=
  decide ("login:".toList <:+: str) && !decide ("Last".toList <:+: str)

def literal (c : Char) : Item Char := .one (· == c)

/-- `.+` -/
def anything : Item Char := .many (· != '\n')

/-- `\s` of a pattern for texts. -/
def isSpace (c : Char) : Bool :=
  let n := c.toNat
  (9 ≤ n && n ≤ 13) || (28 ≤ n && n ≤ 32) || n == 0x85 || n == 0xa0 || n == 0x1680 ||
    (0x2000 ≤ n && n ≤ 0x200a) || n == 0x2028 || n == 0x2029 || n == 0x202f || n == 0x205f ||
    n == 0x3000

def cliPromptPattern : List (List (Item Char)) :=
  [[literal '$'], [literal '>'], [literal '#'],
    [literal '[', anything, literal '@', anything, .one isSpace, anything, literal ']',
      literal '$'],
    [literal '>', anything],
    [anything, literal '@', anything, literal ':', anything, literal '>']]

/-- `$` is the end of the text, or the newline at its end. -/
def atEnd (t : Text) : Bool := t == [] || t == ['\n']

def isCommandPrompt (str : Text) : Bool := search atEnd cliPromptPattern str

def isFailurePrompt (str : Text) : Bool :=
  decide ("Login incorrect".toList <:+: str) ||
    decide ("Permission denied, please try again".toList <:+: str)

/-! ## The pattern for command prompts -/

def chomp (t : Text) : Text := if t.getLast? = some '\n' then t.dropLast else t

def lastLine (t : Text) : Text := t.rtakeWhile (· != '\n')

theorem lastLine_append {u : Text} (hu : '\n' ∉ u) (pre : Text) : u <:+ lastLine (pre ++ u) := by
  induction u using List.reverseRecOn with
  | nil => exact List.nil_suffix
  | append_singleton u c ih =>
    rw [List.mem_append, not_or, List.mem_singleton] at hu
    have hc : (c != '\n') = true := bne_iff_ne.mpr fun h => hu.2 h.symm
    rw [lastLine, ← List.append_assoc,
      List.rtakeWhile_concat_pos (fun x => x != '\n') (pre ++ u) c hc]
    obtain ⟨w, hw⟩ := ih hu.1
    exact ⟨w, by rw [← List.append_assoc, hw]; rfl⟩

theorem exists_eq_lastLine (t : Text) : ∃ pre, t = pre ++ lastLine t :=
  (List.rtakeWhile_suffix (· != '\n') t).imp fun _ h => h.symm

theorem not_mem_lastLine (t : Text) : '\n' ∉ lastLine t := by
  intro h
  have := List.mem_rtakeWhile_imp h
  simp at this

theorem chomp_match {pre w v : Text} {c : Char} (hc : c ≠ '\n') (hv : atEnd v = true) :
    chomp (pre ++ (w ++ [c] ++ v)) = pre ++ (w ++ [c]) := by
  rw [atEnd, Bool.or_eq_true, beq_iff_eq, beq_iff_eq] at hv
  rcases hv with rfl | rfl
  · rw [chomp, List.append_nil, ← List.append_assoc, List.getLast?_concat,
      if_neg (by simpa using hc)]
  · rw [chomp, ← List.append_assoc, List.getLast?_concat, if_pos rfl, List.dropLast_concat]

theorem chomp_end (t : Text) : ∃ v, t = chomp t ++ v ∧ atEnd v = true := by
  rw [chomp]
  by_cases h : t.getLast? = some '\n'
  · rw [if_pos h]
    obtain ⟨ys, rfl⟩ := List.getLast?_eq_some_iff.mp h
    exact ⟨['\n'], by rw [List.dropLast_concat], rfl⟩
  · rw [if_neg h]
    exact ⟨[], (List.append_nil t).symm, rfl⟩

/-- A text taken for a command prompt: its last line has `>` anywhere, or `$` or `#` at
its end. -/
def PromptLine (line : Text) : Prop :=
  '>' ∈ line ∨ line.getLast? = some '$' ∨ line.getLast? = some '#'

theorem promptLine_ends {c : Char} (hc : c = '$' ∨ c = '>' ∨ c = '#') (t : Text) :
    PromptLine (lastLine (t ++ [c])) := by
  have hnewline : '\n' ∉ [c] := by rcases hc with rfl | rfl | rfl <;> decide
  obtain ⟨w, hw⟩ := lastLine_append hnewline t
  rw [← hw, PromptLine, List.getLast?_concat]
  rcases hc with rfl | rfl | rfl <;> simp

theorem promptLine_follows {w : Text} (hw : '\n' ∉ w) (t : Text) :
    PromptLine (lastLine (t ++ '>' :: w)) := by
  have hnewline : '\n' ∉ '>' :: w := by simpa using hw
  obtain ⟨w', hw'⟩ := lastLine_append hnewline t
  rw [← hw', PromptLine]
  simp

/-- The alternatives for `[user@host dir]$` and for `user@host:dir>` left out. -/
def shortPattern : List (List (Item Char)) :=
  [[literal '$'], [literal '>'], [literal '#'], [literal '>', anything]]

theorem search_short (str : Text) :
    search atEnd cliPromptPattern str = search atEnd shortPattern str := by
  refine search_eq_of_redundant ?_ ?_ str
  · intro r hr
    simp only [shortPattern, List.mem_cons, List.not_mem_nil, or_false] at hr
    rcases hr with rfl | rfl | rfl | rfl <;> simp [cliPromptPattern]
  · intro r hr
    simp only [cliPromptPattern, List.mem_cons, List.not_mem_nil, or_false] at hr
    rcases hr with rfl | rfl | rfl | rfl | rfl | rfl
    · exact .inl (by simp [shortPattern])
    · exact .inl (by simp [shortPattern])
    · exact .inl (by simp [shortPattern])
    · exact .inr ⟨[literal '[', anything, literal '@', anything, .one isSpace, anything,
        literal ']'], (· == '$'), rfl, by simp [shortPattern, literal]⟩
    · exact .inl (by simp [shortPattern])
    · exact .inr ⟨[anything, literal '@', anything, literal ':', anything], (· == '>'), rfl,
        by simp [shortPattern, literal]⟩

theorem search_of_match {pre u v : Text} {r : List (Item Char)} (hr : r ∈ shortPattern)
    (hu : Matches r u) (hv : atEnd v = true) :
    search atEnd shortPattern (pre ++ u ++ v) = true :=
  (search_iff _ _).mpr ⟨pre, u, v, List.append_assoc _ _ _, hv, r, hr, hu⟩

theorem search_of_last {c : Char} (hc : c = '$' ∨ c = '>' ∨ c = '#') {pre v : Text}
    (hv : atEnd v = true) : search atEnd shortPattern (pre ++ [c] ++ v) = true := by
  have hmatch : Matches [literal c] [c] := matches_one_iff.mpr ⟨c, rfl, beq_self_eq_true c⟩
  refine search_of_match ?_ hmatch hv
  rcases hc with rfl | rfl | rfl <;> simp [shortPattern]

theorem isCommandPrompt_iff (str : Text) :
    isCommandPrompt str = true ↔ PromptLine (lastLine (chomp str)) := by
  rw [isCommandPrompt, search_short, search_iff]
  constructor
  · rintro ⟨pre, u, v, rfl, hv, r, hr, hu⟩
    have hends : ∀ {c : Char}, (c = '$' ∨ c = '>' ∨ c = '#') → Matches [literal c] u →
        PromptLine (lastLine (chomp (pre ++ (u ++ v)))) := by
      intro c hc hu
      obtain ⟨d, rfl, hd⟩ := matches_one_iff.mp hu
      rw [beq_iff_eq] at hd
      have hnewline : d ≠ '\n' := by rcases hc with rfl | rfl | rfl <;> rw [hd] <;> decide
      rw [← List.nil_append [d], chomp_match hnewline hv, List.nil_append, hd]
      exact promptLine_ends hc pre
    simp only [shortPattern, List.mem_cons, List.not_mem_nil, or_false] at hr
    rcases hr with rfl | rfl | rfl | rfl
    · exact hends (.inl rfl) hu
    · exact hends (.inr (.inl rfl)) hu
    · exact hends (.inr (.inr rfl)) hu
    · obtain ⟨c, _, rfl, hc, w, _, rfl, hne, hall, rfl⟩ := hu
      rw [beq_iff_eq] at hc
      have hw : '\n' ∉ w := fun h => absurd (hall _ h) (by simp)
      obtain ⟨w', d, rfl⟩ := (List.eq_nil_or_concat w).resolve_left hne
      have hd : d ≠ '\n' := fun h => hw (by simp [h])
      rw [List.concat_eq_append] at hw
      rw [List.append_nil, List.concat_eq_append, ← List.cons_append, chomp_match hd hv, hc]
      exact promptLine_follows hw pre
  · intro h
    obtain ⟨v, hstr, hv⟩ := chomp_end str
    obtain ⟨pre, hpre⟩ := exists_eq_lastLine (chomp str)
    have hnewline := not_mem_lastLine (chomp str)
    rw [← search_iff, hstr, hpre]
    generalize lastLine (chomp str) = line at h hnewline ⊢
    rcases h with h | h | h
    · obtain ⟨a, b, rfl⟩ := List.append_of_mem h
      by_cases hb : b = []
      · rw [hb, ← List.append_assoc]
        exact search_of_last (.inr (.inl rfl)) hv
      · rw [← List.append_assoc]
        refine search_of_match (r := [literal '>', anything]) (by simp [shortPattern]) ?_ hv
        refine ⟨'>', b, rfl, rfl, b, [], (List.append_nil b).symm, hb, ?_, rfl⟩
        intro c hc
        refine bne_iff_ne.mpr fun heq => hnewline ?_
        rw [← heq]
        exact List.mem_append_right _ (List.mem_cons_of_mem _ hc)
    · obtain ⟨a, rfl⟩ := List.getLast?_eq_some_iff.mp h
      rw [← List.append_assoc]
      exact search_of_last (.inl rfl) hv
    · obtain ⟨a, rfl⟩ := List.getLast?_eq_some_iff.mp h
      rw [← List.append_assoc]
      exact search_of_last (.inr (.inr rfl)) hv

end InVehicle.SerialPrompts
