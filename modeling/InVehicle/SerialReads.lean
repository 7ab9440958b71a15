import InVehicle.Loops
import InVehicle.SerialShell

/-!
# How often a serial command reads

The loop of `SerialDeviceShell.exec_command` on a port that never stops answering:
the reads return the blocks the stream comes in, and nothing behind the last one.
-/

set_option autoImplicit false

namespace InVehicle.SerialReads
open InVehicle.TextCodecs InVehicle.SerialShell InVehicle.Loops

/-- `self._ser.read`: a read behind the end of the stream times out. -/
def serRead (blocks : List Bytes) (n : ℕ) : Bytes := blocks.getD n []

/-- The body of `while True` on what it reads: what it leaves the loop with, if it does. -/
def body (testcaseFilter : Text) (serBytes : Bytes) : Option (Except SerialError (List Text)) :=
  match readString serBytes with
  | none => some (.error .unicodeDecodeError)
  | some lastRead =>
    if testcaseFilter <:+: lastRead then some (.ok [lastRead])
    else if commandDoneString <:+: lastRead then some (.ok [])
    else none

def FinitelyManyReads (testcaseFilter : Option Text) (blocks : List Bytes) : Prop :=
  Ends (stateless (body (testcaseFilter.getD []))) (serRead blocks) ()

section Blocks
variable {f : Text} {b : Bytes} {r : Except SerialError (List Text)}

theorem readLoop_cons (b : Bytes) (blocks : List Bytes) :
    readLoop f (b :: blocks) = match body f b with
      | some r => some r
      | none => readLoop f blocks := by
  rw [readLoop, body]
  cases readString b with
  | none => rfl
  | some u =>
    simp only
    split_ifs <;> rfl

theorem body_nil (f : Text) : body f [] = if f = [] then some (.ok [[]]) else none := by
  have hread : readString [] = some [] := by decide
  simp only [body, hread, List.infix_nil]
  rfl

theorem readLoop_returns_iff (f : Text) (blocks : List Bytes) :
    readLoop f blocks = some r ↔ Returns (stateless (body f)) (serRead blocks) () r := by
  induction blocks with
  | nil =>
    have hbody : body f [] = readLoop f [] := by
      rw [readLoop, body_nil]
      simp only [List.infix_nil]
    rw [← hbody, stateless_returns_iff]
    constructor
    · intro h
      exact ⟨0, fun i hi => absurd hi (Nat.not_lt_zero i), h⟩
    · rintro ⟨n, -, hn⟩
      exact hn
  | cons b blocks ih =>
    rw [readLoop_cons]
    cases hb : body f b with
    | some r' =>
      rw [stateless_returns_some (show body f (serRead (b :: blocks) 0) = some r' from hb)]
      exact Option.some_inj
    | none =>
      rw [stateless_returns_none (show body f (serRead (b :: blocks) 0) = none from hb)]
      exact ih

end Blocks

/-! ## Reads that end the loop -/

/-- `sub` stands in `u` with a further character behind it. -/
def Followed (sub u : Text) : Prop := ∃ c, sub ++ [c] <:+: u

/-- Taken on its own, the block cuts a character or has the filter or the marker, with
a further character behind it. -/
def Recognised (testcaseFilter : Text) (block : Bytes) : Prop :=
  utf8.decode block = none ∨
    ∃ u, utf8.decode block = some u ∧ (Followed testcaseFilter u ∨ Followed commandDoneString u)

theorem infix_dropLast_iff (sub u : Text) (hsub : sub ≠ []) :
    sub <:+: u.dropLast ↔ Followed sub u := by
  rcases List.eq_nil_or_concat u with rfl | ⟨v, x, rfl⟩
  · constructor
    · intro h
      exact absurd (List.infix_nil.mp h) hsub
    · rintro ⟨c, h⟩
      exact absurd (List.infix_nil.mp h) (by simp)
  · rw [List.concat_eq_append, List.dropLast_concat]
    constructor
    · rintro ⟨p, q, rfl⟩
      cases q with
      | nil => exact ⟨x, p, [], by simp⟩
      | cons c q => exact ⟨c, p, q ++ [x], by simp⟩
    · rintro ⟨c, p, q, h⟩
      rcases List.eq_nil_or_concat q with rfl | ⟨q', y, rfl⟩
      · rw [List.append_nil, ← List.append_assoc] at h
        exact ⟨p, [], by rw [List.append_nil, (List.append_inj' h rfl).1]⟩
      · rw [List.concat_eq_append, ← List.append_assoc] at h
        refine ⟨p, c :: q', ?_⟩
        rw [← (List.append_inj' h rfl).1]
        simp

theorem body_some_iff (f : Text) (hf : f ≠ []) (b : Bytes) :
    (∃ r, body f b = some r) ↔ Recognised f b := by
  have hdone : commandDoneString ≠ [] := by decide
  rw [body, Recognised, readString]
  cases utf8.decode b with
  | none => simp
  | some u =>
    have hcond : Followed f u ∨ Followed commandDoneString u ↔
        f <:+: u.dropLast ∨ commandDoneString <:+: u.dropLast :=
      or_congr (infix_dropLast_iff f u hf).symm (infix_dropLast_iff _ u hdone).symm
    simp only [Option.map_some, Option.some.injEq, exists_eq_left', reduceCtorEq, false_or, hcond]
    by_cases h : f <:+: u.dropLast
    · simp [h]
    · by_cases h' : commandDoneString <:+: u.dropLast
      · simp [h, h']
      · simp [h, h']

theorem not_recognised_nil (f : Text) : ¬ Recognised f [] := by
  have hdecode : utf8.decode [] = some [] := by decide
  rw [Recognised, hdecode]
  simp [Followed]

theorem finite_of_empty {testcaseFilter : Option Text} (blocks : List Bytes)
    (hf : testcaseFilter.getD [] = []) : FinitelyManyReads testcaseFilter blocks := by
  rw [FinitelyManyReads, stateless_ends_iff, hf]
  refine ⟨0, ?_⟩
  rw [body]
  cases readString (serRead blocks 0) with
  | none => exact ⟨_, rfl⟩
  | some u => exact ⟨_, if_pos List.nil_infix⟩

theorem finite_iff_recognised {testcaseFilter : Option Text} (blocks : List Bytes)
    (hf : testcaseFilter.getD [] ≠ []) :
    FinitelyManyReads testcaseFilter blocks ↔
      ∃ b ∈ blocks, Recognised (testcaseFilter.getD []) b := by
  rw [FinitelyManyReads, stateless_ends_iff]
  simp only [body_some_iff _ hf]
  constructor
  · rintro ⟨n, hn⟩
    by_cases hlt : n < blocks.length
    · refine ⟨blocks[n], List.getElem_mem hlt, ?_⟩
      rwa [serRead, List.getD_eq_getElem _ _ hlt] at hn
    · rw [serRead, List.getD_eq_default _ _ (Nat.le_of_not_lt hlt)] at hn
      exact absurd hn (not_recognised_nil _)
  · rintro ⟨b, hb, hr⟩
    obtain ⟨n, hlt, rfl⟩ := List.getElem_of_mem hb
    refine ⟨n, ?_⟩
    rwa [serRead, List.getD_eq_getElem _ _ hlt]

/-- Whatever the stream is, the loop ends exactly if there is nothing to look for, or
one of the blocks is recognised on its own. -/
theorem finite_iff (testcaseFilter : Option Text) (blocks : List Bytes) :
    FinitelyManyReads testcaseFilter blocks ↔
      testcaseFilter.getD [] = [] ∨ ∃ b ∈ blocks, Recognised (testcaseFilter.getD []) b := by
  by_cases hf : testcaseFilter.getD [] = []
  · exact iff_of_true (finite_of_empty blocks hf) (.inl hf)
  · rw [finite_iff_recognised blocks hf]
    exact (or_iff_right hf).symm

/-- A stream with the marker in it, cut in the middle of the marker. -/
theorem cut_in_marker :
    utf8.encode commandDoneString <:+: stream "up\n".toList ['\n'] ∧
    [(stream "up\n".toList ['\n']).take 10, (stream "up\n".toList ['\n']).drop 10].flatten =
      stream "up\n".toList ['\n'] ∧
    ¬ FinitelyManyReads (some "error".toList)
      [(stream "up\n".toList ['\n']).take 10, (stream "up\n".toList ['\n']).drop 10] := by
  have hf : (some "error".toList).getD [] ≠ [] := by decide
  refine ⟨⟨utf8.encode "up\n".toList, utf8.encode ['\n'], by decide +kernel⟩,
    by decide +kernel, ?_⟩
  rw [finite_iff_recognised _ hf]
  rintro ⟨b, hb, hr⟩
  obtain ⟨r, hr⟩ := (body_some_iff _ hf b).mpr hr
  have hnone : body "error".toList b = none := by
    rcases List.mem_pair.mp hb with rfl | rfl <;> decide +kernel
  cases hnone.symm.trans hr

end InVehicle.SerialReads
