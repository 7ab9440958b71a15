import InVehicle.SerialLogin

/-!
# How a serial login ends

A login that returns says whether the shell is logged in. On a device that is only
listened to, the loop ends exactly with the first text that decides or with the sixth one
that says anything.
-/

set_option autoImplicit false

namespace InVehicle.SerialLoginEnds
open InVehicle.TextCodecs InVehicle.Effect InVehicle.Loops InVehicle.SerialPrompts
open InVehicle.SerialLogin

/-! ## The result -/

/-- The shell of `bash` was named by the probe, or a command prompt was read. -/
def Shows (s : Shell) : Prop :=
  isCommandPrompt s.lastRead = true ∨ "bash".toList <:+: s.lastRead

/-- What is returned is whether the shell is logged in, and it only is where it shows. -/
def Outcome (b : Bool) (s : Shell) : Prop := s.loggedIn = b ∧ (b = true → Shows s)

def Out (s : Shell) : Prop := s.loggedIn = false

section Steps

variable (port : Port) (c : Credentials)

theorem writeString_out (l : Line) : Keeps Out (writeString port c l) :=
  writeString_ensures fun _ hs => ⟨hs, fun _ => hs⟩

theorem readString_out : Keeps Out (readString port) :=
  readString_ensures fun _ hs => ⟨fun _ => hs, fun _ => hs⟩

theorem loginWithPassword_out (i : ℕ) : Keeps Out (loginWithPassword port c i) := by
  induction i with
  | zero => exact ensures_pure fun _ h => h
  | succ i ih =>
    have hanswer : Keeps Out (answerPassword port c) :=
      lastRead_ensures fun _ => ensures_ite
        (fun _ => ensures_pre (ensures_bind (writeString_out port c _) fun _ =>
          ensures_bind (readString_out port) fun _ => ensures_pure fun _ h => h) fun _ h => h.1)
        fun _ => ensures_pure fun _ h => h.1
    exact ensures_bind (writeString_out port c _) fun _ => ensures_bind (readString_out port)
      fun _ => ensures_bind hanswer fun _ => lastRead_ensures fun _ =>
        ensures_ite (fun _ => ensures_pure fun _ h => h.1) fun _ =>
          ensures_ite (fun _ => ensures_pure fun _ h => h.1) fun _ => ensures_pre ih fun _ h => h.1

theorem setLoggedIn_outcome {P : Shell → Prop} (h : ∀ s, P s → Shows s) :
    Ensures P (do setLoggedIn true; pure true) Outcome (fun _ => Out) := by
  intro s hs
  exact ⟨rfl, fun _ => h s hs⟩

theorem out_outcome {P : Shell → Prop} (h : ∀ s, P s → Out s) :
    Ensures P (pure false : Step Bool) Outcome (fun _ => Out) :=
  ensures_pure fun s hs => ⟨h s hs, nofun⟩

theorem prelude_outcome : Ensures Out (prelude port c) Outcome (fun _ => Out) := by
  have hvalidate : Ensures Out (validatePrompt port c)
      (fun b s => Out s ∧ (b = true → Shows s)) (fun _ => Out) :=
    ensures_bind (writeString_out port c _) fun _ => ensures_bind (readString_out port) fun _ =>
      lastRead_ensures fun _ => ensures_pure fun s hs =>
        ⟨hs.1, fun hb => .inr (hs.2 ▸ of_decide_eq_true hb)⟩
  refine ensures_bind (writeString_out port c _) fun _ => ensures_bind (readString_out port)
    fun _ => lastRead_ensures fun _ => ensures_ite (fun _ => ?_) fun _ => out_outcome fun _ h => h.1
  refine ensures_bind (ensures_pre hvalidate fun _ h => h.1) fun valid =>
    ensures_ite (fun hvalid => ?_) fun _ => out_outcome fun _ h => h.1
  exact setLoggedIn_outcome fun s hs => hs.2 hvalid

def Passed : Bool ⊕ Counters → Shell → Prop
  | .inl b, s => Outcome b s
  | .inr _, s => Out s

theorem handle_outcome (k : Counters) (lineSize : ℕ) :
    Ensures Out (handle port c k lineSize) Passed (fun _ => Out) := by
  have hfails : ∀ {P : Shell → Prop}, (∀ s, P s → Out s) →
      Ensures P (pure (.inl false) : Step (Bool ⊕ Counters)) Passed (fun _ => Out) :=
    fun h => ensures_pure fun s hs => ⟨h s hs, nofun⟩
  have hsucceeds : ∀ {P : Shell → Prop}, (∀ s, P s → Shows s) →
      Ensures P (do setLoggedIn true; pure (.inl true)) Passed (fun _ => Out) :=
    fun h s hs => ⟨rfl, fun _ => h s hs⟩
  have hgoes : ∀ {P : Shell → Prop} (k : Counters), (∀ s, P s → Out s) →
      Ensures P (pure (.inr k) : Step (Bool ⊕ Counters)) Passed (fun _ => Out) :=
    fun _ h => ensures_pure h
  refine lastRead_ensures fun t => ensures_ite (fun _ => ?_) fun _ => ensures_ite (fun _ => ?_)
    fun _ => hgoes _ fun _ h => h.1
  · refine ensures_ite (fun hprompt => hsucceeds fun s hs => .inl (hs.2 ▸ hprompt)) fun _ =>
      ensures_ite (fun _ => ?_) fun _ =>
        ensures_ite (fun _ => hfails fun _ h => h.1) fun _ => hgoes _ fun _ h => h.1
    refine ensures_bind (ensures_pre (loginWithPassword_out port c loginRetries) fun _ h => h.1)
      fun success => lastRead_ensures fun t => ensures_ite (fun hprompt => ?_)
        fun _ => hfails fun _ h => h.1
    rw [Bool.and_eq_true] at hprompt
    exact hsucceeds fun s hs => .inl (hs.2 ▸ hprompt.2)
  · exact ensures_bind (ensures_pre (writeString_out port c _) fun _ h => h.1) fun _ =>
      hgoes _ fun _ h => h

end Steps

def Known : Pass (Shell × Counters) (Bool × Shell) → Prop
  | .next s => Out s.1
  | .done r => Outcome r.1 r.2

theorem pass_known (port : Port) (c : Credentials) {s : Shell × Counters} (hs : Out s.1) :
    Known (loginPass port c () s) := by
  have hpass := ensures_bind (readString_out port) (handle_outcome port c s.2)
  rw [loginPass]
  obtain ⟨b | k, t, hrun, h⟩ | ⟨e, t, hrun, h⟩ := hpass.ends hs
  · rw [hrun]
    exact h
  · rw [hrun]
    exact h
  · rw [hrun]
    exact ⟨h, fun hb => absurd hb Bool.false_ne_true⟩

theorem after_known (port : Port) (c : Credentials) {s : Shell × Counters} (hs : Out s.1)
    (n : ℕ) : Known (after (loginPass port c) (fun _ => ()) s n) := by
  induction n with
  | zero => exact hs
  | succ n ih =>
    rw [after]
    cases h : after (loginPass port c) (fun _ => ()) s n with
    | next t =>
      rw [h] at ih
      exact pass_known port c ih
    | done r =>
      rw [h] at ih
      exact ih

/-- Whatever the device answers: a login that returns tells whether the shell is logged in,
which takes a prompt or the answer of the probe, and one that raises leaves it logged out. -/
theorem login_outcome (port : Port) (c : Credentials) :
    (∀ b t, Login port c fresh (.ok b) t → Outcome b t) ∧
    ∀ e t, Login port c fresh (.error e) t → t.loggedIn = false := by
  have hprelude := prelude_outcome port c fresh rfl
  constructor
  · intro b t hlogin
    cases hlogin with
    | already h =>
      rw [h] at hprelude
      exact hprelude
    | looped h hloop =>
      rw [h] at hprelude
      rw [loop, if_neg (by simp [hprelude.1])] at hloop
      obtain ⟨n, hn⟩ := hloop
      have hknown := after_known port c hprelude.1 n (s := (_, ⟨0, 0⟩))
      rw [hn] at hknown
      exact hknown
  · intro e t hlogin
    cases hlogin with
    | raises h =>
      rw [h] at hprelude
      exact hprelude

/-! ## The end of the loop -/

def isGot : Event → Bool
  | .got _ => true
  | .wrote _ => false

/-- A device whose answers do not depend on what is written. -/
def stream (reads : ℕ → Option Bytes) : Port where
  writeFails _ _ := false
  read tr := reads (tr.countP isGot)

section Stream

variable (reads : ℕ → Option Bytes) (c : Credentials)

/-- The text that read `n` leaves, unless it fails. -/
def textAt (n : ℕ) : Option Text := (reads n).bind SerialShell.readString

/-- The loop is over with this read: it fails, or it is a prompt. -/
def Decides (n : ℕ) : Prop :=
  match textAt reads n with
  | none => True
  | some t => t ≠ [] ∧ (isCommandPrompt t = true ∨ isLoginPrompt t = true)

def speaks (n : ℕ) : Bool :=
  match textAt reads n with
  | none => false
  | some t => !t.isEmpty

/-- How many of the next `n` reads from `k` on have a text. -/
def heard (k n : ℕ) : ℕ := (List.range n).countP fun i => speaks reads (k + i)

theorem heard_succ (k n : ℕ) :
    heard reads k (n + 1) = heard reads k n + if speaks reads (k + n) then 1 else 0 := by
  rw [heard, List.range_succ, List.countP_append, List.countP_singleton, ← heard]

def readsOf (s : Shell) : ℕ := s.trace.countP isGot

variable {reads}

theorem readString_fails {s : Shell} (h : textAt reads (readsOf s) = none) :
    ∃ e, readString (stream reads) s = (.error e, s) := by
  have hport : (stream reads).read s.trace = reads (readsOf s) := rfl
  rw [readString, hport]
  rw [textAt] at h
  cases hread : reads (readsOf s) with
  | none => exact ⟨_, rfl⟩
  | some serBytes =>
    rw [hread] at h
    have h' : SerialShell.readString serBytes = none := h
    exact ⟨.unicodeDecodeError, by simp only [h']⟩

theorem readString_reads {s : Shell} {t : Text} (h : textAt reads (readsOf s) = some t) :
    readString (stream reads) s =
      (.ok t.length, ({ s with lastRead := t } : Shell).add (.got t)) := by
  have hport : (stream reads).read s.trace = reads (readsOf s) := rfl
  rw [readString, hport]
  rw [textAt] at h
  cases hread : reads (readsOf s) with
  | none =>
    rw [hread] at h
    cases h
  | some serBytes =>
    rw [hread] at h
    have h' : SerialShell.readString serBytes = some t := h
    simp only [h']

theorem handle_decides (port : Port) {k : Counters} {lineSize : ℕ} (hsize : 0 < lineSize) :
    Ensures (fun s => isCommandPrompt s.lastRead = true ∨ isLoginPrompt s.lastRead = true ∨
        5 < k.unknownCntr + 1)
      (handle port c k lineSize) (fun r _ => ∃ b, r = .inl b) (fun _ _ => True) := by
  have hany : ∀ {α : Type} (m : Step α) {P : Shell → Prop},
      Ensures P m (fun _ _ => True) (fun _ _ => True) := by
    intro α m P s _
    match m s with
    | (.ok a, t) => exact trivial
    | (.error e, t) => exact trivial
  refine lastRead_ensures fun t => ensures_ite (fun _ => ?_) fun h => absurd hsize h
  refine ensures_ite (fun _ => ?_) fun hcommand => ensures_ite (fun _ => ?_) fun hlogin =>
    ensures_ite (fun _ => ensures_pure fun _ _ => ⟨_, rfl⟩) fun hunknown => ?_
  · exact ensures_bind (hany _) fun _ => ensures_pure fun _ _ => ⟨_, rfl⟩
  · refine ensures_bind (hany _) fun _ => lastRead_ensures fun _ => ensures_ite
      (fun _ => ensures_bind (hany _) fun _ => ensures_pure fun _ _ => ⟨_, rfl⟩)
      fun _ => ensures_pure fun _ _ => ⟨_, rfl⟩
  · rintro s ⟨h | h | h, rfl⟩
    · exact absurd h hcommand
    · exact absurd h hlogin
    · exact absurd h hunknown

theorem handle_goes (reads : ℕ → Option Bytes) (n : ℕ) {k : Counters} {lineSize : ℕ}
    (hunknown : 0 < lineSize → k.unknownCntr + 1 ≤ 5) :
    Ensures (fun s => (0 < lineSize → isCommandPrompt s.lastRead = false ∧
        isLoginPrompt s.lastRead = false) ∧ readsOf s = n)
      (handle (stream reads) c k lineSize)
      (fun r s => ∃ k', r = .inr k' ∧ readsOf s = n ∧
        k'.unknownCntr = k.unknownCntr + if 0 < lineSize then 1 else 0)
      (fun _ _ => False) := by
  refine lastRead_ensures fun t => ensures_ite (fun hsize => ?_) fun hsize =>
    ensures_ite (fun _ => ?_) fun _ => ensures_pure fun s hs => ⟨_, rfl, hs.1.2, by simp [hsize]⟩
  · refine ensures_ite (fun h => ?_) fun _ => ensures_ite (fun h => ?_) fun _ =>
      ensures_ite (fun h => absurd (hunknown hsize) (by omega)) fun _ => ensures_pure ?_
    · rintro s ⟨⟨hprompt, -⟩, rfl⟩
      rw [(hprompt hsize).1] at h
      cases h
    · rintro s ⟨⟨hprompt, -⟩, rfl⟩
      rw [(hprompt hsize).2] at h
      cases h
    · rintro s ⟨⟨-, hn⟩, -⟩
      exact ⟨_, rfl, hn, by simp [hsize]⟩
  · have hwrite : Ensures (fun s => readsOf s = n) (writeString (stream reads) c .wake)
        (fun _ s => readsOf s = n) (fun _ _ => False) := by
      intro s hs
      rw [writeString, if_neg (by simp [stream])]
      show readsOf (s.add (.wrote .wake)) = n
      rw [← hs]
      simp [readsOf, isGot]
    exact ensures_bind (ensures_pre hwrite fun _ h => h.1.2) fun _ =>
      ensures_pure fun s hs => ⟨_, rfl, hs, by simp [hsize]⟩

theorem readsOf_got (s : Shell) (t : Text) :
    readsOf (({ s with lastRead := t } : Shell).add (.got t)) = readsOf s + 1 := by
  simp [readsOf, isGot]

theorem pass_decides {s : Shell} (k : Counters)
    (h : Decides reads (readsOf s) ∨ speaks reads (readsOf s) = true ∧ 5 < k.unknownCntr + 1) :
    ∃ r, loginPass (stream reads) c () (s, k) = .done r := by
  rw [Decides, speaks] at h
  cases ht : textAt reads (readsOf s) with
  | none =>
    obtain ⟨e, he⟩ := readString_fails ht
    have hrun : (readString (stream reads) >>= handle (stream reads) c k) s = (.error e, s) :=
      bind_error he
    exact ⟨(false, s), by rw [loginPass, hrun]⟩
  | some t =>
    rw [ht] at h
    have hne : t ≠ [] := by
      rcases h with h | ⟨h, -⟩
      · exact h.1
      · rintro rfl
        cases h
    have hends := handle_decides c (stream reads) (k := k) (List.length_pos_of_ne_nil hne)
    rw [loginPass, bind_ok (readString_reads ht)]
    obtain ⟨_, s', hrun, b, rfl⟩ | ⟨e, s', hrun, -⟩ := hends.ends
      (s := ({ s with lastRead := t } : Shell).add (.got t))
      (h.elim (fun h => h.2.imp_right .inl) fun h => .inr (.inr h.2))
    · exact ⟨(b, s'), by rw [hrun]⟩
    · exact ⟨(false, s'), by rw [hrun]⟩

theorem pass_goes {s : Shell} (k : Counters) (hdecides : ¬ Decides reads (readsOf s))
    (hunknown : speaks reads (readsOf s) = true → k.unknownCntr + 1 ≤ 5) :
    ∃ t k', loginPass (stream reads) c () (s, k) = .next (t, k') ∧ readsOf t = readsOf s + 1 ∧
      k'.unknownCntr = k.unknownCntr + if speaks reads (readsOf s) then 1 else 0 := by
  rw [Decides] at hdecides
  rw [speaks] at hunknown ⊢
  cases ht : textAt reads (readsOf s) with
  | none =>
    rw [ht] at hdecides
    exact absurd trivial hdecides
  | some t =>
    rw [ht] at hdecides hunknown
    have hsize : 0 < t.length ↔ (!t.isEmpty) = true := by cases t <;> simp
    have hgoes := handle_goes c reads (readsOf s + 1) (fun h => hunknown (hsize.mp h))
    have hquiet : 0 < t.length → isCommandPrompt t = false ∧ isLoginPrompt t = false := by
      intro h
      have hne := List.ne_nil_of_length_pos h
      simpa [hne] using hdecides
    rw [loginPass, bind_ok (readString_reads ht)]
    obtain ⟨_, s', hrun, k', rfl, hreads, hcount⟩ | ⟨e, s', -, h⟩ := hgoes.ends
      (s := ({ s with lastRead := t } : Shell).add (.got t)) ⟨hquiet, readsOf_got s t⟩
    · refine ⟨s', k', by rw [hrun], hreads, ?_⟩
      rw [hcount]
      simp only [hsize]
    · exact h.elim

variable (reads)

def Going (k n : ℕ) : Prop := (∀ i < n, ¬ Decides reads (k + i)) ∧ heard reads k n ≤ 5

theorem after_going {s : Shell} {n : ℕ} (h : Going reads (readsOf s) n) :
    ∃ t k, after (loginPass (stream reads) c) (fun _ => ()) (s, ⟨0, 0⟩) n = .next (t, k) ∧
      readsOf t = readsOf s + n ∧ k.unknownCntr = heard reads (readsOf s) n := by
  induction n with
  | zero => exact ⟨s, ⟨0, 0⟩, rfl, rfl, rfl⟩
  | succ n ih =>
    obtain ⟨hdecides, hheard⟩ := h
    rw [heard_succ] at hheard
    obtain ⟨t, k, hafter, ht, hk⟩ := ih ⟨fun i hi => hdecides i (by omega), by omega⟩
    have hnext := hdecides n (Nat.lt_succ_self n)
    rw [← ht] at hnext hheard
    obtain ⟨t', k', hpass, ht', hk'⟩ := pass_goes c k hnext fun hspeaks => by
      rw [hspeaks] at hheard
      simp at hheard
      omega
    refine ⟨t', k', ?_, by omega, ?_⟩
    · rw [after, hafter]
      exact hpass
    · rw [hk', hk, heard_succ, ht]

theorem after_over {s : Shell} {n : ℕ} (h : ¬ Going reads (readsOf s) n) :
    ∃ r, after (loginPass (stream reads) c) (fun _ => ()) (s, ⟨0, 0⟩) n = .done r := by
  induction n with
  | zero => exact absurd ⟨fun i hi => absurd hi (Nat.not_lt_zero i), Nat.zero_le 5⟩ h
  | succ n ih =>
    by_cases hgoing : Going reads (readsOf s) n
    · obtain ⟨t, k, hafter, ht, hk⟩ := after_going reads c hgoing
      have hends : Decides reads (readsOf t) ∨
          speaks reads (readsOf t) = true ∧ 5 < k.unknownCntr + 1 := by
        rw [ht, hk]
        by_contra hno
        rw [not_or, not_and, not_lt] at hno
        refine h ⟨fun i hi => ?_, ?_⟩
        · rcases Nat.lt_succ_iff_lt_or_eq.mp hi with hi | rfl
          · exact hgoing.1 i hi
          · exact hno.1
        · have hheard := hgoing.2
          rw [heard_succ]
          split
          · rename_i hspeaks
            exact hno.2 hspeaks
          · exact hheard
      obtain ⟨r, hr⟩ := pass_decides c k hends
      exact ⟨r, by rw [after, hafter]; exact hr⟩
    · obtain ⟨r, hr⟩ := ih hgoing
      exact ⟨r, after_done_mono hr (Nat.le_succ n)⟩

end Stream

end InVehicle.SerialLoginEnds
