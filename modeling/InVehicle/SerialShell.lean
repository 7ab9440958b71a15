import InVehicle.TextCodecs
import InVehicle.Basic

/-!
# Commands over a serial shell

`SerialDeviceShell.exec_command` on the blocks of bytes that the reads of the port
return. A read behind the last of them times out and returns nothing, so that a
loop that gets there may never end.
-/

set_option autoImplicit false

namespace InVehicle.SerialShell
open InVehicle.TextCodecs

def commandDoneString : Text := "clarity_command_done".toList

inductive SerialError where
  | writeFailed
  | unicodeDecodeError
  deriving DecidableEq, Repr

/-- What `exec_command` returns: the list of a shell that is not logged in, or the
tuple of detections, together with the contents of stderr if they were asked for. -/
inductive Output where
  | notLoggedIn (lines : List Text)
  | detections (ds : List Text)
  | withStderr (ds : List Text) (stderrContent : Text)
  deriving DecidableEq, Repr

/-- `_read_string` on one block: the text for `_last_read`. -/
def readString (serBytes : Bytes) : Option Text := (utf8.decode serBytes).map List.dropLast

/-- The loop of `exec_command`, without a result if it does not end. -/
def readLoop (testcaseFilter : Text) : List Bytes → Option (Except SerialError (List Text))
  | [] => if testcaseFilter <:+: [] then some (.ok [[]]) else none
  | serBytes :: reads =>
    match readString serBytes with
    | none => some (.error .unicodeDecodeError)
    | some lastRead =>
      if testcaseFilter <:+: lastRead then some (.ok [lastRead])
      else if commandDoneString <:+: lastRead then some (.ok [])
      else readLoop testcaseFilter reads

def commandLine (command : Text) : Text :=
  command ++ " ; echo ".toList ++ commandDoneString ++ ['\n']

def output (returnStderr : Bool) (ds : List Text) : Output :=
  if returnStderr then .withStderr ds [] else .detections ds

/-- `exec_command`, together with the bytes written to the port. -/
def execCommand (loggedIn : Bool) (command : Text) (testcaseFilter : Option Text)
    (returnStderr writeFails : Bool) (reads : List Bytes) :
    Bytes × Option (Except SerialError Output) :=
  if !loggedIn then ([], some (.ok (.notLoggedIn [[]])))
  else if writeFails then ([], some (.error .writeFailed))
  else (utf8.encode (commandLine command),
    (readLoop (testcaseFilter.getD []) reads).map fun r => r.map (output returnStderr))

/-! ## The read that decides -/

/-- `t` is the text of the first read that has the filter or the marker in it. This
read and those in front of it do not cut a character. -/
inductive Decisive (testcaseFilter : Text) : List Bytes → Text → Prop
  | here {c : Bytes} {cs : List Bytes} {t : Text} (hc : readString c = some t)
      (h : testcaseFilter <:+: t ∨ commandDoneString <:+: t) :
      Decisive testcaseFilter (c :: cs) t
  | later {c : Bytes} {cs : List Bytes} {t u : Text} (hc : readString c = some u)
      (hfilter : ¬ testcaseFilter <:+: u) (hdone : ¬ commandDoneString <:+: u)
      (rest : Decisive testcaseFilter cs t) : Decisive testcaseFilter (c :: cs) t

def detected (testcaseFilter t : Text) : List Text := if testcaseFilter <:+: t then [t] else []

section Decisive
variable {f : Text} {cs : List Bytes} {t u : Text} {ds : List Text}

theorem readLoop_decisive (h : Decisive f cs t) :
    readLoop f cs = some (.ok (detected f t)) := by
  induction h with
  | @here c cs t hc h =>
    simp only [readLoop, hc, detected]
    by_cases hf : f <:+: t
    · rw [if_pos hf, if_pos hf]
    · rw [if_neg hf, if_neg hf, if_pos (h.resolve_left hf)]
  | later hc hfilter hdone rest ih =>
    simp only [readLoop, hc]
    rw [if_neg hfilter, if_neg hdone, ih]

theorem decisive_readLoop (hcs : cs ≠ [] ∨ f ≠ []) (h : readLoop f cs = some (.ok ds)) :
    ∃ t, Decisive f cs t ∧ ds = detected f t := by
  induction cs with
  | nil =>
    have hf : ¬ f <:+: [] := by
      rw [List.infix_nil]
      exact hcs.resolve_left (not_not.mpr rfl)
    simp [readLoop, hf] at h
  | cons c cs ih =>
    cases hc : readString c with
    | none => simp [readLoop, hc] at h
    | some u =>
      simp only [readLoop, hc] at h
      by_cases hf : f <:+: u
      · rw [if_pos hf] at h
        cases h
        exact ⟨u, .here hc (.inl hf), (if_pos hf).symm⟩
      rw [if_neg hf] at h
      by_cases hd : commandDoneString <:+: u
      · rw [if_pos hd] at h
        cases h
        exact ⟨u, .here hc (.inr hd), (if_neg hf).symm⟩
      rw [if_neg hd] at h
      have hne : f ≠ [] := by
        rintro rfl
        exact hf List.nil_infix
      obtain ⟨t, ht, hds⟩ := ih (.inr hne) h
      exact ⟨t, .later hc hf hd ht, hds⟩

theorem decisive_first (h : Decisive [] cs t) :
    ∃ c rest, cs = c :: rest ∧ readString c = some t := by
  cases h with
  | here hc h => exact ⟨_, _, rfl, hc⟩
  | later hc hfilter hdone rest => exact absurd List.nil_infix hfilter

end Decisive

/-! ## The cuts of a stream -/

/-- The first `k` reads end behind the first `p` characters of the text. -/
def CutAt (text : Text) (cs : List Bytes) (k p : ℕ) : Prop :=
  p ≤ text.length ∧ (cs.take k).flatten = utf8.encode (text.take p)

/-- The characters from `p` to `q`, but for the last. -/
def inner (text : Text) (p q : ℕ) : Text := (text.drop p).take (q - p - 1)

def Tells (testcaseFilter t : Text) : Prop := testcaseFilter <:+: t ∨ commandDoneString <:+: t

instance (testcaseFilter t : Text) : Decidable (Tells testcaseFilter t) :=
  inferInstanceAs (Decidable (_ ∨ _))

/-- The read behind the first `k`, with the characters from `p` to `q`, is the first that
has the filter or the marker in front of its last character. No character is cut up to
its end. -/
structure FirstTelling (testcaseFilter text : Text) (cs : List Bytes) (k p q : ℕ) : Prop where
  read : k < cs.length
  whole : ∀ j ≤ k, ∃ r, CutAt text cs j r
  first : CutAt text cs k p
  last : CutAt text cs (k + 1) q
  tells : Tells testcaseFilter (inner text p q)
  silent : ∀ j < k, ∀ r r', CutAt text cs j r → CutAt text cs (j + 1) r' →
    ¬ Tells testcaseFilter (inner text r r')

section Cuts
variable {f text : Text} {c : Bytes} {cs : List Bytes} {k n p q : ℕ}

theorem encode_take_le (hp : p ≤ text.length)
    (h : utf8.encode (text.take p) <+: utf8.encode (text.take q)) : p ≤ q := by
  have hle := (utf8.prefix_of_encode _ _ h).length_le
  rw [List.length_take, List.length_take] at hle
  omega

theorem CutAt.unique (hp : CutAt text cs k p) (hq : CutAt text cs k q) : p = q := by
  have heq := hp.2.symm.trans hq.2
  exact le_antisymm (encode_take_le hp.1 (heq ▸ List.prefix_rfl))
    (encode_take_le hq.1 (heq ▸ List.prefix_rfl))

theorem cutAt_zero (text : Text) (cs : List Bytes) : CutAt text cs 0 0 := ⟨Nat.zero_le _, rfl⟩

theorem cutAt_one : CutAt text (c :: cs) 1 n ↔ n ≤ text.length ∧ c = utf8.encode (text.take n) := by
  rw [CutAt, List.take_succ_cons, List.take_zero, List.flatten_singleton]

theorem encode_take_add (text : Text) (n r : ℕ) :
    utf8.encode (text.take (n + r)) =
      utf8.encode (text.take n) ++ utf8.encode ((text.drop n).take r) := by
  rw [List.take_add, Codec.encode, List.flatMap_append]
  rfl

theorem cutAt_succ (h : CutAt text (c :: cs) 1 n) (j : ℕ) (p : ℕ) :
    CutAt text (c :: cs) (j + 1) p ↔ ∃ r, p = n + r ∧ CutAt (text.drop n) cs j r := by
  obtain ⟨hn, hc⟩ := cutAt_one.mp h
  rw [CutAt, List.take_succ_cons, List.flatten_cons, hc]
  constructor
  · rintro ⟨hp, hflatten⟩
    obtain ⟨r, rfl⟩ := Nat.exists_eq_add_of_le
      (encode_take_le hn (hflatten ▸ List.prefix_append _ _))
    rw [encode_take_add, List.append_cancel_left_eq] at hflatten
    exact ⟨r, rfl, by rw [List.length_drop]; omega, hflatten⟩
  · rintro ⟨r, rfl, hr, hflatten⟩
    rw [List.length_drop] at hr
    rw [encode_take_add, hflatten]
    exact ⟨by omega, rfl⟩

theorem cutAt_add (h : CutAt text (c :: cs) 1 n) (j : ℕ) (p : ℕ) :
    CutAt text (c :: cs) (j + 1) (n + p) ↔ CutAt (text.drop n) cs j p := by
  rw [cutAt_succ h]
  constructor
  · rintro ⟨r, hr, hcut⟩
    obtain rfl := Nat.add_left_cancel hr
    exact hcut
  · exact fun hcut => ⟨p, rfl, hcut⟩

theorem inner_add (text : Text) (n p q : ℕ) :
    inner text (n + p) (n + q) = inner (text.drop n) p q := by
  rw [inner, inner, List.drop_drop, Nat.add_sub_add_left]

theorem readString_cut (h : CutAt text (c :: cs) 1 n) : readString c = some (inner text 0 n) := by
  obtain ⟨hn, hc⟩ := cutAt_one.mp h
  rw [readString, (utf8.decode_iff c _).mpr hc, Option.map_some, List.dropLast_eq_take,
    List.length_take, Nat.min_eq_left hn, List.take_take, inner, List.drop_zero, Nat.sub_zero,
    Nat.min_eq_left (Nat.sub_le n 1)]

theorem flatten_rest (hcs : (c :: cs).flatten = utf8.encode text) (h : CutAt text (c :: cs) 1 n) :
    cs.flatten = utf8.encode (text.drop n) := by
  obtain ⟨hn, hc⟩ := cutAt_one.mp h
  have hsplit := encode_take_add text n (text.length - n)
  rw [Nat.add_sub_cancel' hn, List.take_length, ← List.length_drop, List.take_length, ← hcs,
    List.flatten_cons, hc, List.append_cancel_left_eq] at hsplit
  exact hsplit

theorem readString_cuts {t : Text} (hcs : (c :: cs).flatten = utf8.encode text)
    (h : readString c = some t) : ∃ n, CutAt text (c :: cs) 1 n := by
  obtain ⟨u, hu, rfl⟩ := Option.map_eq_some_iff.mp h
  have hc := (utf8.decode_iff c u).mp hu
  have hbegin : u <+: text := by
    refine utf8.prefix_of_encode _ _ ?_
    rw [← hc, ← hcs, List.flatten_cons]
    exact List.prefix_append c _
  refine ⟨u.length, cutAt_one.mpr ⟨hbegin.length_le, ?_⟩⟩
  rw [hc, ← List.prefix_iff_eq_take.mp hbegin]

theorem firstTelling_zero (h : CutAt text (c :: cs) 1 n) (htells : Tells f (inner text 0 n)) :
    FirstTelling f text (c :: cs) 0 0 n where
  read := Nat.zero_lt_succ _
  whole j hj := by
    obtain rfl := Nat.le_zero.mp hj
    exact ⟨0, cutAt_zero text _⟩
  first := cutAt_zero text _
  last := h
  tells := htells
  silent j hj := absurd hj (Nat.not_lt_zero j)

theorem firstTelling_succ (h : CutAt text (c :: cs) 1 n) (hsilent : ¬ Tells f (inner text 0 n)) :
    FirstTelling f text (c :: cs) (k + 1) (n + p) (n + q) ↔
      FirstTelling f (text.drop n) cs k p q := by
  constructor
  · intro ht
    refine ⟨Nat.lt_of_succ_lt_succ ht.read, fun j hj => ?_, (cutAt_add h k p).mp ht.first,
      (cutAt_add h (k + 1) q).mp ht.last, inner_add text n p q ▸ ht.tells, ?_⟩
    · obtain ⟨r, hr⟩ := ht.whole (j + 1) (Nat.succ_le_succ hj)
      obtain ⟨r', -, hr'⟩ := (cutAt_succ h j r).mp hr
      exact ⟨r', hr'⟩
    · intro j hj r r' hr hr'
      rw [← inner_add]
      exact ht.silent (j + 1) (Nat.succ_lt_succ hj) _ _ ((cutAt_add h j r).mpr hr)
        ((cutAt_add h (j + 1) r').mpr hr')
  · intro ht
    refine ⟨Nat.succ_lt_succ ht.read, fun j hj => ?_, (cutAt_add h k p).mpr ht.first,
      (cutAt_add h (k + 1) q).mpr ht.last, (inner_add text n p q).symm ▸ ht.tells, ?_⟩
    · cases j with
      | zero => exact ⟨0, cutAt_zero text _⟩
      | succ j =>
        obtain ⟨r, hr⟩ := ht.whole j (Nat.le_of_succ_le_succ hj)
        exact ⟨n + r, (cutAt_add h j r).mpr hr⟩
    · intro j hj r r' hr hr'
      cases j with
      | zero =>
        rw [hr.unique (cutAt_zero text _), hr'.unique h]
        exact hsilent
      | succ j =>
        obtain ⟨q, rfl, hq⟩ := (cutAt_succ h j r).mp hr
        obtain ⟨q', rfl, hq'⟩ := (cutAt_succ h (j + 1) r').mp hr'
        rw [inner_add]
        exact ht.silent j (Nat.lt_of_succ_lt_succ hj) q q' hq hq'

theorem decisive_iff (text : Text) (hcs : cs.flatten = utf8.encode text) (t : Text) :
    Decisive f cs t ↔ ∃ k p q, FirstTelling f text cs k p q ∧ t = inner text p q := by
  constructor
  · intro h
    induction h generalizing text with
    | @here c cs t hc h =>
      obtain ⟨n, hcut⟩ := readString_cuts hcs hc
      obtain rfl : t = inner text 0 n := Option.some.inj (hc.symm.trans (readString_cut hcut))
      exact ⟨0, 0, n, firstTelling_zero hcut h, rfl⟩
    | @later c cs t u hc hfilter hdone rest ih =>
      obtain ⟨n, hcut⟩ := readString_cuts hcs hc
      obtain rfl : u = inner text 0 n := Option.some.inj (hc.symm.trans (readString_cut hcut))
      obtain ⟨k, p, q, hfirst, rfl⟩ := ih (text.drop n) (flatten_rest hcs hcut)
      exact ⟨k + 1, n + p, n + q,
        (firstTelling_succ hcut (not_or.mpr ⟨hfilter, hdone⟩)).mpr hfirst,
        (inner_add text n p q).symm⟩
  · rintro ⟨k, p, q, h, rfl⟩
    induction k generalizing text cs p q with
    | zero =>
      cases cs with
      | nil => exact absurd h.read (Nat.not_lt_zero 0)
      | cons c cs =>
        obtain rfl := h.first.unique (cutAt_zero text _)
        exact .here (readString_cut h.last) h.tells
    | succ k ih =>
      cases cs with
      | nil => exact absurd h.read (Nat.not_lt_zero _)
      | cons c cs =>
        obtain ⟨n, hcut⟩ := h.whole 1 (Nat.succ_le_succ (Nat.zero_le k))
        obtain ⟨p, rfl, -⟩ := (cutAt_succ hcut k p).mp h.first
        obtain ⟨q, rfl, -⟩ := (cutAt_succ hcut (k + 1) q).mp h.last
        have hsilent := h.silent 0 (Nat.succ_pos k) 0 n (cutAt_zero text _) hcut
        rw [firstTelling_succ hcut hsilent] at h
        rw [inner_add]
        exact .later (readString_cut hcut) (fun hf => hsilent (.inl hf))
          (fun hd => hsilent (.inr hd)) (ih (text.drop n) (flatten_rest hcs hcut) p q h)

end Cuts

/-! ## Two ways to cut the same stream -/

/-- The output of the command, and the line with the marker behind it. -/
def stream (out ending : Text) : Bytes := utf8.encode (out ++ (commandDoneString ++ ending))

def Covers (out : Text) (testcaseFilter : Option Text) (ds : List Text) : Prop :=
  match testcaseFilter with
  | none => out <:+: ds.flatten
  | some f => ds ≠ [] ↔ f <:+: out

/-- Both cuttings give the same detections, and the right ones. -/
def SameResult (command out : Text) (testcaseFilter : Option Text) (returnStderr : Bool)
    (cs cs' : List Bytes) : Prop :=
  ∃ ds, (execCommand true command testcaseFilter returnStderr false cs).2 =
      some (.ok (output returnStderr ds)) ∧
    (execCommand true command testcaseFilter returnStderr false cs').2 =
      some (.ok (output returnStderr ds)) ∧
    Covers out testcaseFilter ds

def Agreeing (out : Text) (testcaseFilter : Option Text) (t t' : Text) : Prop :=
  match testcaseFilter with
  | none => t = t' ∧ out <+: t
  | some f => if f <:+: out then t = t' ∧ f <:+: t else ¬ f <:+: t ∧ ¬ f <:+: t'

/-- Two telling reads, from `p` to `q` and from `p'` to `q'`, fit together. Without a
filter both are the first, and end at one place behind the output. With one that occurs
in the output they have the same characters but the last, and the filter among these.
With one that does not, neither of them has it there. -/
def FitTogether (out text : Text) (testcaseFilter : Option Text) (p q p' q' : ℕ) : Prop :=
  match testcaseFilter with
  | none => q - 1 = q' - 1 ∧ out.length ≤ q - 1
  | some f =>
    if f <:+: out then inner text p q = inner text p' q' ∧ f <:+: inner text p q
    else ¬ f <:+: inner text p q ∧ ¬ f <:+: inner text p' q'

theorem output_injective (returnStderr : Bool) {ds ds' : List Text}
    (h : output returnStderr ds = output returnStderr ds') : ds = ds' := by
  cases returnStderr <;> simpa [output] using h

theorem execCommand_ok (command : Text) (testcaseFilter : Option Text) (returnStderr : Bool)
    (cs : List Bytes) (ds : List Text) :
    (execCommand true command testcaseFilter returnStderr false cs).2 =
        some (.ok (output returnStderr ds)) ↔
      readLoop (testcaseFilter.getD []) cs = some (.ok ds) := by
  show (readLoop (testcaseFilter.getD []) cs).map (fun r => r.map (output returnStderr)) = _ ↔ _
  match readLoop (testcaseFilter.getD []) cs with
  | none => simp
  | some (.error e) => simp [Except.map]
  | some (.ok ds') =>
    simp only [Option.map_some, Except.map, Option.some.injEq, Except.ok.injEq]
    exact ⟨output_injective returnStderr, fun h => by rw [h]⟩

theorem stream_ne_nil (out ending : Text) (cs : List Bytes) (h : cs.flatten = stream out ending) :
    cs ≠ [] := by
  rintro rfl
  have hc : 'c' ∈ out ++ (commandDoneString ++ ending) :=
    List.mem_append_right _ (List.mem_append_left _ (by decide))
  exact utf8.nonempty 'c' (List.flatMap_eq_nil_iff.mp h.symm 'c' hc)

theorem decisive_beginning {out ending t : Text} {cs : List Bytes}
    (hcs : cs.flatten = stream out ending) (h : Decisive [] cs t) :
    t <+: out ++ (commandDoneString ++ ending) := by
  obtain ⟨c, rest, rfl, hc⟩ := decisive_first h
  obtain ⟨u, hu, rfl⟩ := Option.map_eq_some_iff.mp hc
  have hprefix : utf8.encode u <+: utf8.encode (out ++ (commandDoneString ++ ending)) := by
    rw [← (utf8.decode_iff c u).mp hu, ← stream, ← hcs, List.flatten_cons]
    exact List.prefix_append c _
  exact u.dropLast_prefix.trans (utf8.prefix_of_encode _ _ hprefix)

theorem out_beginning {out ending t : Text} {cs : List Bytes}
    (hcs : cs.flatten = stream out ending) (h : Decisive [] cs t) :
    out <:+: t ↔ out <+: t := by
  constructor
  · intro hout
    exact List.prefix_of_prefix_length_le (List.prefix_append _ _) (decisive_beginning hcs h)
      hout.length_le
  · exact List.IsPrefix.isInfix

theorem detected_nil (t : Text) : detected [] t = [t] := if_pos List.nil_infix

theorem agreeing_none {out t : Text} (t' : Text) (h : out <:+: t ↔ out <+: t) :
    detected [] t = detected [] t' ∧ Covers out none (detected [] t) ↔ Agreeing out none t t' := by
  rw [detected_nil, detected_nil, List.singleton_inj, Covers, List.flatten_singleton, h]
  exact Iff.rfl

theorem detected_ne_nil (f t : Text) : detected f t ≠ [] ↔ f <:+: t := by
  rw [detected]
  by_cases h : f <:+: t
  · rw [if_pos h]
    exact iff_of_true (List.cons_ne_nil t []) h
  · rw [if_neg h]
    exact iff_of_false (not_not.mpr rfl) h

theorem agreeing_some (out f t t' : Text) :
    detected f t = detected f t' ∧ Covers out (some f) (detected f t) ↔
      Agreeing out (some f) t t' := by
  rw [Covers, detected_ne_nil, Agreeing]
  by_cases ht : f <:+: t
  · by_cases ht' : f <:+: t'
    · rw [detected, detected, if_pos ht, if_pos ht', List.singleton_inj]
      by_cases hf : f <:+: out <;> simp [ht, hf]
    · have hne : t ≠ t' := by
        rintro rfl
        exact ht' ht
      rw [detected, detected, if_pos ht, if_neg ht']
      by_cases hf : f <:+: out <;> simp [ht, hf, hne]
  · by_cases ht' : f <:+: t'
    · rw [detected, detected, if_neg ht, if_pos ht']
      by_cases hf : f <:+: out <;> simp [ht, ht', hf]
    · rw [detected, detected, if_neg ht, if_neg ht']
      by_cases hf : f <:+: out <;> simp [ht, ht', hf]

theorem sameResult_iff (command out ending : Text) (testcaseFilter : Option Text)
    (returnStderr : Bool) (cs cs' : List Bytes) (hcs : cs.flatten = stream out ending)
    (hcs' : cs'.flatten = stream out ending) :
    SameResult command out testcaseFilter returnStderr cs cs' ↔
      ∃ t t', Decisive (testcaseFilter.getD []) cs t ∧ Decisive (testcaseFilter.getD []) cs' t' ∧
        Agreeing out testcaseFilter t t' := by
  have hagree : ∀ t t', Decisive (testcaseFilter.getD []) cs t →
      (detected (testcaseFilter.getD []) t = detected (testcaseFilter.getD []) t' ∧
        Covers out testcaseFilter (detected (testcaseFilter.getD []) t) ↔
      Agreeing out testcaseFilter t t') := by
    intro t t' ht
    cases testcaseFilter with
    | none => exact agreeing_none t' (out_beginning hcs ht)
    | some f => exact agreeing_some out f t t'
  simp only [SameResult, execCommand_ok]
  constructor
  · rintro ⟨ds, h, h', hcovers⟩
    obtain ⟨t, ht, rfl⟩ := decisive_readLoop (.inl (stream_ne_nil out ending cs hcs)) h
    obtain ⟨t', ht', hds⟩ := decisive_readLoop (.inl (stream_ne_nil out ending cs' hcs')) h'
    exact ⟨t, t', ht, ht', (hagree t t' ht).mp ⟨hds, hcovers⟩⟩
  · rintro ⟨t, t', ht, ht', h⟩
    obtain ⟨hds, hcovers⟩ := (hagree t t' ht).mpr h
    refine ⟨detected (testcaseFilter.getD []) t, readLoop_decisive ht, ?_, hcovers⟩
    rw [readLoop_decisive ht', hds]

theorem FirstTelling.front {text : Text} {cs : List Bytes} {k p q : ℕ}
    (h : FirstTelling [] text cs k p q) : p = 0 := by
  cases k with
  | zero => exact h.first.unique (cutAt_zero text cs)
  | succ k =>
    obtain ⟨n, hn⟩ := h.whole 1 (Nat.succ_le_succ (Nat.zero_le k))
    exact absurd (.inl List.nil_infix) (h.silent 0 (Nat.succ_pos k) 0 n (cutAt_zero text cs) hn)

theorem agreeing_fit {out ending : Text} {testcaseFilter : Option Text} {cs cs' : List Bytes}
    {k p q k' p' q' : ℕ}
    (h : FirstTelling (testcaseFilter.getD []) (out ++ (commandDoneString ++ ending)) cs k p q)
    (h' : FirstTelling (testcaseFilter.getD []) (out ++ (commandDoneString ++ ending)) cs' k'
      p' q') :
    Agreeing out testcaseFilter (inner (out ++ (commandDoneString ++ ending)) p q)
        (inner (out ++ (commandDoneString ++ ending)) p' q') ↔
      FitTogether out (out ++ (commandDoneString ++ ending)) testcaseFilter p q p' q' := by
  cases testcaseFilter with
  | some f => exact Iff.rfl
  | none =>
    obtain rfl := h.front
    obtain rfl := h'.front
    have hq := h.last.1
    have hq' := h'.last.1
    rw [Agreeing, FitTogether, inner, inner, List.drop_zero, Nat.sub_zero, Nat.sub_zero]
    refine and_congr ?_ ?_
    · rw [List.take_eq_take_iff]
      omega
    · rw [List.prefix_take_iff, and_iff_right (List.prefix_append out _)]

/-- Two cuttings of a stream give the same and right result exactly if in both of them
some read is the first telling one, and these two reads fit together. -/
theorem chunks_iff (command out ending : Text) (testcaseFilter : Option Text)
    (returnStderr : Bool) (cs cs' : List Bytes) (hcs : cs.flatten = stream out ending)
    (hcs' : cs'.flatten = stream out ending) :
    SameResult command out testcaseFilter returnStderr cs cs' ↔
      ∃ k p q k' p' q',
        FirstTelling (testcaseFilter.getD []) (out ++ (commandDoneString ++ ending)) cs k p q ∧
        FirstTelling (testcaseFilter.getD []) (out ++ (commandDoneString ++ ending)) cs' k' p' q' ∧
        FitTogether out (out ++ (commandDoneString ++ ending)) testcaseFilter p q p' q' := by
  rw [sameResult_iff command out ending testcaseFilter returnStderr cs cs' hcs hcs']
  constructor
  · rintro ⟨t, t', ht, ht', hagree⟩
    obtain ⟨k, p, q, h, rfl⟩ := (decisive_iff _ hcs t).mp ht
    obtain ⟨k', p', q', h', rfl⟩ := (decisive_iff _ hcs' t').mp ht'
    exact ⟨k, p, q, k', p', q', h, h', (agreeing_fit h h').mp hagree⟩
  · rintro ⟨k, p, q, k', p', q', h, h', hfit⟩
    exact ⟨_, _, (decisive_iff _ hcs _).mpr ⟨k, p, q, h, rfl⟩,
      (decisive_iff _ hcs' _).mpr ⟨k', p', q', h', rfl⟩, (agreeing_fit h h').mpr hfit⟩

def reads (parts : List String) : List Bytes := parts.map fun part => utf8.encode part.toList

theorem reads_flatten (parts : List String) :
    (reads parts).flatten = utf8.encode (parts.flatMap String.toList) := by
  induction parts with
  | nil => rfl
  | cons part parts ih =>
    rw [reads, List.map_cons, List.flatten_cons, ← reads, ih, List.flatMap_cons, Codec.encode,
      Codec.encode, Codec.encode, List.flatMap_append]

def uptime : Text := "up 3 days now\n".toList

def byLines : List Bytes := reads ["up 3 ", "days now\n", "clarity_command_done\n"]

def byWords : List Bytes := reads ["up", " 3 ", "days now\n", "clarity_", "command_done\n"]

theorem byLines_telling : FirstTelling "days".toList (uptime ++ (commandDoneString ++ ['\n']))
    byLines 1 5 14 := by
  have hcut : CutAt (uptime ++ (commandDoneString ++ ['\n'])) byLines 1 5 :=
    cutAt_one.mpr ⟨by decide, by decide +kernel⟩
  refine (firstTelling_succ (k := 0) (p := 0) (q := 9) hcut (by decide +kernel)).mpr ?_
  exact firstTelling_zero (cutAt_one.mpr ⟨by decide, by decide +kernel⟩) (by decide +kernel)

theorem byWords_telling : FirstTelling "days".toList (uptime ++ (commandDoneString ++ ['\n']))
    byWords 2 5 14 := by
  have hcut : CutAt (uptime ++ (commandDoneString ++ ['\n'])) byWords 1 2 :=
    cutAt_one.mpr ⟨by decide, by decide +kernel⟩
  have hcut' : CutAt ((uptime ++ (commandDoneString ++ ['\n'])).drop 2) byWords.tail 1 3 :=
    cutAt_one.mpr ⟨by decide, by decide +kernel⟩
  refine (firstTelling_succ (k := 1) (p := 3) (q := 12) hcut (by decide +kernel)).mpr ?_
  refine (firstTelling_succ (k := 0) (p := 0) (q := 9) hcut' (by decide +kernel)).mpr ?_
  exact firstTelling_zero (cutAt_one.mpr ⟨by decide, by decide +kernel⟩) (by decide +kernel)

/-- Two cuttings of one output in which the filter is in the same read. -/
theorem one_line : (execCommand true "uptime".toList (some "days".toList) false false byLines).2 =
      some (.ok (.detections ["days now".toList])) ∧
    SameResult "uptime".toList uptime (some "days".toList) false byLines byWords := by
  refine ⟨by decide +kernel, ?_⟩
  have hlines : byLines.flatten = stream uptime ['\n'] :=
    (reads_flatten _).trans (congrArg utf8.encode (by decide +kernel))
  have hwords : byWords.flatten = stream uptime ['\n'] :=
    (reads_flatten _).trans (congrArg utf8.encode (by decide +kernel))
  refine (chunks_iff "uptime".toList uptime ['\n'] (some "days".toList) false byLines byWords
    hlines hwords).mpr
    ⟨1, 5, 14, 2, 5, 14, byLines_telling, byWords_telling, ?_⟩
  rw [FitTogether, if_pos (by decide +kernel)]
  exact ⟨rfl, by decide +kernel⟩

/-- The first byte on its own, and the rest. -/
theorem first_byte_differs :
    [stream "up\n".toList ['\n']].flatten = stream "up\n".toList ['\n'] ∧
    [[117], (stream "up\n".toList ['\n']).tail].flatten = stream "up\n".toList ['\n'] ∧
    ¬ SameResult "uptime".toList "up\n".toList none false [stream "up\n".toList ['\n']]
      [[117], (stream "up\n".toList ['\n']).tail] := by
  refine ⟨List.append_nil _, by decide +kernel, ?_⟩
  rintro ⟨ds, h, h', -⟩
  have hwhole : (execCommand true "uptime".toList none false false
      [stream "up\n".toList ['\n']]).2 =
      some (.ok (output false ["up\nclarity_command_done".toList])) := by decide +kernel
  have hfirst : (execCommand true "uptime".toList none false false
      [[117], (stream "up\n".toList ['\n']).tail]).2 = some (.ok (output false [[]])) := by
    decide +kernel
  rw [hwhole] at h
  rw [hfirst] at h'
  simp only [Option.some.injEq, Except.ok.injEq] at h h'
  have heq := output_injective false (h.trans h'.symm)
  revert heq
  decide

theorem length_le_encode (s : Text) : s.length ≤ (utf8.encode s).length := by
  induction s with
  | nil => exact Nat.le_refl _
  | cons c s ih =>
    have hpos := List.length_pos_iff.mpr (utf8.nonempty c)
    rw [Codec.encode, List.flatMap_cons, List.length_append, List.length_cons, ← Codec.encode]
    omega

theorem readString_byte (b : UInt8) (t : Text) (h : readString [b] = some t) : t = [] := by
  obtain ⟨u, hu, rfl⟩ := Option.map_eq_some_iff.mp h
  have hlen := length_le_encode u
  rw [← (utf8.decode_iff [b] u).mp hu, List.length_singleton] at hlen
  apply List.eq_nil_of_length_eq_zero
  rw [List.length_dropLast]
  omega

theorem decisive_bytes (f t : Text) (bs : Bytes) (h : Decisive f (bs.map fun b => [b]) t) :
    t = [] ∧ f = [] := by
  induction bs with
  | nil => cases h
  | cons b bs ih =>
    cases h with
    | here hc h =>
      have ht := readString_byte b t hc
      rw [ht, List.infix_nil, List.infix_nil] at h
      exact ⟨ht, h.resolve_right (by decide)⟩
    | later hc hfilter hdone rest => exact ih rest

theorem readString_stream (out ending : Text) :
    readString (stream out ending) = some (out ++ (commandDoneString ++ ending)).dropLast := by
  have hdec : utf8.decode (stream out ending) = some (out ++ (commandDoneString ++ ending)) :=
    (utf8.decode_iff (stream out ending) _).mpr rfl
  rw [readString, hdec, Option.map_some]

theorem flatten_bytes (bs : Bytes) : (bs.map fun b => [b]).flatten = bs := by
  induction bs with
  | nil => rfl
  | cons b bs ih => rw [List.map_cons, List.flatten_cons, ih, List.singleton_append]

theorem decisive_stream {out ending t : Text} (h : Decisive [] [stream out ending] t) :
    t = (out ++ (commandDoneString ++ ending)).dropLast := by
  obtain ⟨c, rest, hcons, hc⟩ := decisive_first h
  have hstream : stream out ending = c := (List.cons.inj hcons).1
  rw [← hstream, readString_stream] at hc
  exact (Option.some.inj hc).symm

/-- Every output, with every filter, can be cut in two ways that do not give the same
result: in one piece, and byte by byte. -/
theorem cut_bytewise (command out ending : Text) (testcaseFilter : Option Text)
    (returnStderr : Bool) :
    ¬ SameResult command out testcaseFilter returnStderr [stream out ending]
      ((stream out ending).map fun b => [b]) := by
  rintro ⟨ds, h, h', -⟩
  rw [execCommand_ok] at h h'
  have hbytes := stream_ne_nil out ending _ (flatten_bytes (stream out ending))
  obtain ⟨t', ht', hds'⟩ := decisive_readLoop (.inl hbytes) h'
  obtain ⟨rfl, hf⟩ := decisive_bytes _ t' (stream out ending) ht'
  obtain ⟨t, ht, hds⟩ := decisive_readLoop (.inl (List.cons_ne_nil _ _)) h
  rw [hf] at ht hds hds'
  rw [detected_nil] at hds hds'
  rw [hds', List.singleton_inj] at hds
  have hlen := congrArg List.length (decisive_stream ht)
  rw [← hds, List.length_dropLast, List.length_append, List.length_append] at hlen
  have hmarker : commandDoneString.length = 20 := by decide
  rw [hmarker, List.length_nil] at hlen
  omega

end InVehicle.SerialShell
