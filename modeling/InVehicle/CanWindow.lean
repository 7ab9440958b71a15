import Mathlib.Tactic.Linarith
import Mathlib.Tactic.Ring
import InVehicle.CanSocketCan

/-!
# The time window of receiving from a CAN bus

`receive` and `sniff` of `CanCommunicatorSocketCan` on a schedule of arrivals. The bus
gives a frame that arrives within the timeout of `recv`, and nothing once the timeout is
over; what is computed in between takes no time.
-/

set_option autoImplicit false

namespace InVehicle.CanWindow
open InVehicle.CanSocketCan (CanMessage)

structure Arrival where
  time : ℚ
  message : CanMessage
  deriving DecidableEq, Repr

abbrev Received := Option Arrival × ℚ × List Arrival

/-- `bus.recv(timeout)` -/
def recv (now timeout : ℚ) : List Arrival → Received
  | [] => (none, now + timeout, [])
  | a :: as =>
    if a.time ≤ now + timeout then (some a, max now a.time, as)
    else (none, now + timeout, a :: as)

section Loops

variable (blacklistIds : Finset ℕ)

def Passes (a : Arrival) : Prop := a.message.arbitrationId ∉ blacklistIds

instance (a : Arrival) : Decidable (Passes blacklistIds a) :=
  inferInstanceAs (Decidable (_ ∉ _))

/-- The loop of `receive`, of at most `n` passes, with the clock at its top. -/
def receiveLoop (timeout startTime : ℚ) : ℕ → ℚ → List Arrival → Option Received
  | 0, _, _ => none
  | n+1, now, as =>
    if now - startTime < timeout then
      match recv now timeout as with
      | (some a, now', as') =>
        if Passes blacklistIds a then some (some a, now', as')
        else receiveLoop timeout startTime n now' as'
      | (none, now', as') => receiveLoop timeout startTime n now' as'
    else some (none, now, as)

/-- `receive` with a timeout, called when the clock shows `now`. -/
def receive (timeout now : ℚ) (as : List Arrival) : Option Received :=
  receiveLoop blacklistIds timeout now (as.length + 2) now as

/-- The loop of `sniff`, of at most `n` passes. -/
def sniffLoop (sniffTime startTime : ℚ) : ℕ → ℚ → List Arrival →
    Option (List Arrival × ℚ × List Arrival)
  | 0, _, _ => none
  | n+1, now, as =>
    if now - startTime < sniffTime then do
      let (m, now', as') ← receive blacklistIds (sniffTime - (now - startTime)) now as
      let (retMsgs, now'', as'') ← sniffLoop sniffTime startTime n now' as'
      return (m.toList ++ retMsgs, now'', as'')
    else some ([], now, as)

def sniff (sniffTime now : ℚ) (as : List Arrival) : Option (List Arrival × ℚ × List Arrival) :=
  sniffLoop blacklistIds sniffTime now (as.length + 2) now as

/-! ## The loops by the frames that come -/

/-- A call of `receive` that began at `begun` and ends its window at `ending`, from a pass
at `now` on. -/
def awaited (ending begun : ℚ) : ℚ → List Arrival → Received
  | now, [] => (none, now + (ending - begun), [])
  | now, a :: as =>
    if a.time ≤ now + (ending - begun) then
      if Passes blacklistIds a then (some a, max now a.time, as)
      else if max now a.time < ending then awaited ending begun (max now a.time) as
      else (none, max now a.time, as)
    else (none, now + (ending - begun), a :: as)

/-- What `sniff` returns from there on. -/
def heard (ending : ℚ) : ℚ → ℚ → List Arrival → List Arrival
  | _, _, [] => []
  | begun, now, a :: as =>
    let now' := max now a.time
    if a.time ≤ now + (ending - begun) then
      if Passes blacklistIds a then a :: if now' < ending then heard ending now' now' as else []
      else if now' < ending then heard ending begun now' as else []
    else []

end Loops

section Returns

variable {blacklistIds : Finset ℕ} {begun now ending timeout : ℚ}

theorem receiveLoop_late (n : ℕ) (as : List Arrival) (h : begun + timeout ≤ now) :
    receiveLoop blacklistIds timeout begun (n + 1) now as = some (none, now, as) := by
  rw [receiveLoop, if_neg (by linarith)]

theorem receiveLoop_returns (n : ℕ) (as : List Arrival) (hn : as.length + 2 ≤ n)
    (hbegun : begun ≤ now) (hnow : now < begun + timeout) :
    receiveLoop blacklistIds timeout begun n now as =
      some (awaited blacklistIds (begun + timeout) begun now as) := by
  have hwait : begun + timeout - begun = timeout := by ring
  induction as generalizing n now with
  | nil =>
    obtain ⟨n, rfl⟩ : ∃ k, n = k + 2 := Nat.exists_eq_add_of_le' hn
    rw [receiveLoop, if_pos (by linarith), recv]
    show receiveLoop blacklistIds timeout begun (n + 1) (now + timeout) [] = _
    rw [receiveLoop_late n [] (by linarith), awaited, hwait]
  | cons a as ih =>
    have hleft : as.length + 3 ≤ n := hn
    obtain ⟨n, rfl⟩ : ∃ k, n = k + 2 := Nat.exists_eq_add_of_le' (by omega)
    rw [receiveLoop, if_pos (by linarith), recv, awaited, hwait]
    by_cases hcome : a.time ≤ now + timeout
    · rw [if_pos hcome, if_pos hcome]
      by_cases hpass : Passes blacklistIds a
      · show (if Passes blacklistIds a then _ else _) = _
        rw [if_pos hpass, if_pos hpass]
      · show (if Passes blacklistIds a then _ else _) = _
        rw [if_neg hpass, if_neg hpass]
        by_cases hearly : max now a.time < begun + timeout
        · rw [if_pos hearly]
          exact ih (n + 1) (by omega) (hbegun.trans (le_max_left now a.time)) hearly
        · rw [if_neg hearly]
          exact receiveLoop_late _ as (not_lt.mp hearly)
    · rw [if_neg hcome, if_neg hcome]
      exact receiveLoop_late _ (a :: as) (by linarith)

theorem receive_returns (as : List Arrival) (h : 0 < timeout) :
    receive blacklistIds timeout now as =
      some (awaited blacklistIds (now + timeout) now now as) :=
  receiveLoop_returns _ as le_rfl le_rfl (by linarith)

theorem awaited_cases (blacklistIds : Finset ℕ) (as : List Arrival) (hbegun : begun ≤ now)
    (hnow : now < ending) :
    (∃ now' rest, awaited blacklistIds ending begun now as = (none, now', rest) ∧
      ending ≤ now' ∧ heard blacklistIds ending begun now as = []) ∨
    (∃ a now' rest, awaited blacklistIds ending begun now as = (some a, now', rest) ∧
      rest.length < as.length ∧ heard blacklistIds ending begun now as =
        a :: if now' < ending then heard blacklistIds ending now' now' rest else []) := by
  induction as generalizing now with
  | nil => exact .inl ⟨_, _, rfl, by linarith, rfl⟩
  | cons a as ih =>
    rw [awaited, heard]
    by_cases hcome : a.time ≤ now + (ending - begun)
    · rw [if_pos hcome, if_pos hcome]
      by_cases hpass : Passes blacklistIds a
      · rw [if_pos hpass, if_pos hpass]
        exact .inr ⟨a, _, as, rfl, Nat.lt_succ_self _, rfl⟩
      · rw [if_neg hpass, if_neg hpass]
        by_cases hearly : max now a.time < ending
        · rw [if_pos hearly, if_pos hearly]
          obtain ⟨now', rest, hnone⟩ | ⟨b, now', rest, hsome, hlength, hheard⟩ :=
            ih (hbegun.trans (le_max_left now a.time)) hearly
          · exact .inl ⟨now', rest, hnone⟩
          · exact .inr ⟨b, now', rest, hsome, hlength.trans (Nat.lt_succ_self _), hheard⟩
        · rw [if_neg hearly, if_neg hearly]
          exact .inl ⟨_, _, rfl, not_lt.mp hearly, rfl⟩
    · rw [if_neg hcome, if_neg hcome]
      exact .inl ⟨_, _, rfl, by linarith, rfl⟩

theorem sniffLoop_late (n : ℕ) (as : List Arrival) (h : begun + timeout ≤ now) :
    sniffLoop blacklistIds timeout begun (n + 1) now as = some ([], now, as) := by
  rw [sniffLoop, if_neg (by linarith)]

theorem sniffLoop_step {n : ℕ} {as rest rest' : List Arrival} {m : Option Arrival}
    {retMsgs : List Arrival} {now' now'' : ℚ} (h : now < begun + timeout)
    (hcall : receive blacklistIds (timeout - (now - begun)) now as = some (m, now', rest))
    (hrest : sniffLoop blacklistIds timeout begun n now' rest = some (retMsgs, now'', rest')) :
    sniffLoop blacklistIds timeout begun (n + 1) now as =
      some (m.toList ++ retMsgs, now'', rest') := by
  rw [sniffLoop, if_pos (by linarith), hcall]
  show (sniffLoop blacklistIds timeout begun n now' rest >>= _) = _
  rw [hrest]
  rfl

theorem sniffLoop_returns (n : ℕ) (as : List Arrival) (hn : as.length + 2 ≤ n)
    (hnow : now < begun + timeout) :
    ∃ now' rest, sniffLoop blacklistIds timeout begun n now as =
      some (heard blacklistIds (begun + timeout) now now as, now', rest) := by
  induction n generalizing now as with
  | zero => omega
  | succ n ih =>
    obtain ⟨n, rfl⟩ : ∃ k, n = k + 1 := Nat.exists_eq_add_of_le' (by omega)
    have hcall : receive blacklistIds (timeout - (now - begun)) now as =
        some (awaited blacklistIds (begun + timeout) now now as) := by
      rw [receive_returns as (by linarith)]
      congr 2
      ring
    obtain ⟨now', rest, hnone, hlate, hheard⟩ | ⟨a, now', rest, hsome, hlength, hheard⟩ :=
      awaited_cases blacklistIds as le_rfl hnow
    · rw [hheard]
      exact ⟨_, _, sniffLoop_step hnow (hcall.trans (congrArg some hnone))
        (sniffLoop_late n rest hlate)⟩
    · rw [hheard]
      have hfirst := hcall.trans (congrArg some hsome)
      by_cases hearly : now' < begun + timeout
      · obtain ⟨now'', rest', hrest⟩ := ih rest (by omega) hearly
        rw [if_pos hearly]
        exact ⟨_, _, sniffLoop_step hnow hfirst hrest⟩
      · rw [if_neg hearly]
        exact ⟨_, _, sniffLoop_step hnow hfirst (sniffLoop_late n rest (not_lt.mp hearly))⟩

theorem sniff_returns (blacklistIds : Finset ℕ) (now : ℚ) (as : List Arrival) (h : 0 < timeout) :
    ∃ now' rest, sniff blacklistIds timeout now as =
      some (heard blacklistIds (now + timeout) now now as, now', rest) :=
  sniffLoop_returns _ as le_rfl (by linarith)

end Returns

/-! ## The frames of the window -/

section Window

variable (blacklistIds : Finset ℕ)

def within (ending : ℚ) (as : List Arrival) : List Arrival := as.takeWhile (·.time ≤ ending)

def behind (ending : ℚ) (as : List Arrival) : List Arrival := as.dropWhile (·.time ≤ ending)

def clockAfter (now : ℚ) (as : List Arrival) : ℚ := as.foldl (fun t a => max t a.time) now

/-- The clock at the last of these frames that passes, `begun` when none does. -/
def lastBegun : ℚ → ℚ → List Arrival → ℚ
  | begun, _, [] => begun
  | begun, now, a :: as =>
    lastBegun (if Passes blacklistIds a then max now a.time else begun) (max now a.time) as

/-- The call meets a frame that passes inside its window, or no frame that moves the
clock, or one that moves it to the very end. -/
def Punctual (ending begun now : ℚ) (as : List Arrival) : Prop :=
  (∃ a ∈ within ending as, Passes blacklistIds a) ∨
    clockAfter now (within ending as) = begun ∨ clockAfter now (within ending as) = ending

/-- Where only blacklisted frames follow the last that passes, the first one behind the
window does not come in the time that was left at that last frame, counted again from
the clock they leave. -/
def Quiet (ending begun now : ℚ) (as : List Arrival) : Prop :=
  let begun' := lastBegun blacklistIds begun now (within ending as)
  let now' := clockAfter now (within ending as)
  begun' < now' → now' < ending →
    ∀ a ∈ (behind ending as).head?, Passes blacklistIds a → now' + (ending - begun') < a.time

end Window

section Bounds

variable {blacklistIds : Finset ℕ} {begun now ending timeout : ℚ} {a : Arrival}

theorem within_early (h : a.time ≤ ending) (as : List Arrival) :
    within ending (a :: as) = a :: within ending as :=
  List.takeWhile_cons_of_pos (decide_eq_true h)

theorem within_late (h : ¬ a.time ≤ ending) (as : List Arrival) : within ending (a :: as) = [] :=
  List.takeWhile_cons_of_neg (by simpa using h)

theorem behind_early (h : a.time ≤ ending) (as : List Arrival) :
    behind ending (a :: as) = behind ending as :=
  List.dropWhile_cons_of_pos (decide_eq_true h)

theorem behind_late (h : ¬ a.time ≤ ending) (as : List Arrival) :
    behind ending (a :: as) = a :: as :=
  List.dropWhile_cons_of_neg (by simpa using h)

theorem le_clockAfter (now : ℚ) (as : List Arrival) : now ≤ clockAfter now as := by
  induction as generalizing now with
  | nil => exact le_rfl
  | cons a as ih => exact (le_max_left now a.time).trans (ih _)

theorem clockAfter_within_le (as : List Arrival) (h : now ≤ ending) :
    clockAfter now (within ending as) ≤ ending := by
  induction as generalizing now with
  | nil => exact h
  | cons a as ih =>
    by_cases hin : a.time ≤ ending
    · rw [within_early hin]
      exact ih (max_le h hin)
    · rw [within_late hin]
      exact h

theorem idle_punctual_iff (hbegun : begun ≤ now) (hnow : now < ending) :
    now + (ending - begun) ≤ ending ↔
      (∃ a ∈ ([] : List Arrival), Passes blacklistIds a) ∨ now = begun ∨ now = ending := by
  constructor
  · intro h
    exact .inr (.inl (by linarith))
  · rintro (⟨a, ha, -⟩ | h | h)
    · cases ha
    · linarith
    · linarith

theorem awaited_late_iff (as : List Arrival) (hlate : ¬ a.time ≤ ending) :
    (awaited blacklistIds ending begun now (a :: as)).2.1 ≤ ending ↔
      now + (ending - begun) ≤ ending := by
  rw [awaited]
  by_cases hcome : a.time ≤ now + (ending - begun)
  · have hclock : ¬ max now a.time ≤ ending := fun h => hlate ((le_max_right now a.time).trans h)
    have hmoved : ¬ now + (ending - begun) ≤ ending := fun h => hlate (hcome.trans h)
    rw [if_pos hcome]
    refine iff_of_false ?_ hmoved
    by_cases hpass : Passes blacklistIds a
    · rw [if_pos hpass]
      exact hclock
    · rw [if_neg hpass, if_neg fun h => hclock h.le]
      exact hclock
  · rw [if_neg hcome]

theorem awaited_punctual_iff (as : List Arrival) (hbegun : begun ≤ now) (hnow : now < ending) :
    (awaited blacklistIds ending begun now as).2.1 ≤ ending ↔
      Punctual blacklistIds ending begun now as := by
  induction as generalizing now with
  | nil => exact idle_punctual_iff hbegun hnow
  | cons a as ih =>
    by_cases hin : a.time ≤ ending
    · rw [awaited, Punctual, within_early hin, if_pos (by linarith)]
      by_cases hpass : Passes blacklistIds a
      · rw [if_pos hpass]
        exact iff_of_true (max_le hnow.le hin) (.inl ⟨a, List.mem_cons_self, hpass⟩)
      · rw [if_neg hpass]
        have hwindow : (∃ b ∈ a :: within ending as, Passes blacklistIds b) ↔
            ∃ b ∈ within ending as, Passes blacklistIds b := by
          rw [List.exists_mem_cons_iff, or_iff_right hpass]
        rw [hwindow]
        by_cases hearly : max now a.time < ending
        · rw [if_pos hearly]
          exact ih (hbegun.trans (le_max_left now a.time)) hearly
        · rw [if_neg hearly]
          have hend : clockAfter (max now a.time) (within ending as) = ending :=
            le_antisymm (clockAfter_within_le as (max_le hnow.le hin))
              ((not_lt.mp hearly).trans (le_clockAfter _ _))
          exact iff_of_true (max_le hnow.le hin) (.inr (.inr hend))
    · rw [awaited_late_iff as hin, Punctual, within_late hin]
      exact idle_punctual_iff hbegun hnow

theorem quiet_ended (as : List Arrival) (h : ¬ now < ending) :
    Quiet blacklistIds ending begun now as := by
  intro _ hclock
  exact absurd ((le_clockAfter now _).trans_lt hclock) h

theorem quiet_early (as : List Arrival) (hin : a.time ≤ ending) :
    Quiet blacklistIds ending begun now (a :: as) = Quiet blacklistIds ending
      (if Passes blacklistIds a then max now a.time else begun) (max now a.time) as := by
  rw [Quiet, within_early hin, behind_early hin]
  rfl

theorem quiet_late (as : List Arrival) (hlate : ¬ a.time ≤ ending) :
    Quiet blacklistIds ending begun now (a :: as) ↔ (begun < now → now < ending →
      Passes blacklistIds a → now + (ending - begun) < a.time) := by
  rw [Quiet, within_late hlate, behind_late hlate]
  simp only [List.head?_cons, Option.mem_some_iff, forall_eq']
  rfl

theorem heard_late (as : List Arrival) (hlate : ¬ a.time ≤ ending) :
    heard blacklistIds ending begun now (a :: as) =
      if a.time ≤ now + (ending - begun) ∧ Passes blacklistIds a then [a] else [] := by
  have hclock : ¬ max now a.time < ending := fun h =>
    hlate ((le_max_right now a.time).trans h.le)
  rw [heard, if_neg hclock, if_neg hclock]
  by_cases hcome : a.time ≤ now + (ending - begun) <;> simp [hcome]

theorem quiet_late_iff (as : List Arrival) (hlate : ¬ a.time ≤ ending) (hbegun : begun ≤ now)
    (hnow : now < ending) : Quiet blacklistIds ending begun now (a :: as) ↔
      ¬ (a.time ≤ now + (ending - begun) ∧ Passes blacklistIds a) := by
  rw [quiet_late as hlate]
  constructor
  · rintro h ⟨hcome, hpass⟩
    by_cases hidle : begun < now
    · exact absurd hcome (not_le.mpr (h hidle hnow hpass))
    · obtain rfl := le_antisymm hbegun (not_lt.mp hidle)
      exact hlate (by linarith)
  · intro h _ _ hpass
    by_contra hcome
    exact h ⟨not_lt.mp hcome, hpass⟩

theorem heard_quiet_iff (as : List Arrival) (hbegun : begun ≤ now) (hnow : now < ending) :
    (∀ m ∈ heard blacklistIds ending begun now as, m.time ≤ ending) ↔
      Quiet blacklistIds ending begun now as := by
  induction as generalizing begun now with
  | nil =>
    refine iff_of_true (fun m hm => nomatch hm) fun _ _ b hb => ?_
    cases hb
  | cons a as ih =>
    by_cases hin : a.time ≤ ending
    · rw [heard, quiet_early as hin, if_pos (by linarith)]
      by_cases hpass : Passes blacklistIds a
      · rw [if_pos hpass, if_pos hpass, List.forall_mem_cons]
        by_cases hearly : max now a.time < ending
        · rw [if_pos hearly, and_iff_right hin]
          exact ih le_rfl hearly
        · rw [if_neg hearly]
          exact iff_of_true ⟨hin, fun m hm => nomatch hm⟩ (quiet_ended as hearly)
      · rw [if_neg hpass, if_neg hpass]
        by_cases hearly : max now a.time < ending
        · rw [if_pos hearly]
          exact ih (hbegun.trans (le_max_left now a.time)) hearly
        · rw [if_neg hearly]
          exact iff_of_true (fun m hm => nomatch hm) (quiet_ended as hearly)
    · rw [heard_late as hin, quiet_late_iff as hin hbegun hnow]
      by_cases hheard : a.time ≤ now + (ending - begun) ∧ Passes blacklistIds a
      · rw [if_pos hheard]
        exact iff_of_false (fun h => hin (h a List.mem_cons_self)) fun h => h hheard
      · rw [if_neg hheard]
        exact iff_of_true (fun m hm => nomatch hm) hheard

end Bounds

/-! ## The window of a call -/

section Calls

variable (blacklistIds : Finset ℕ) (timeout start : ℚ) (as : List Arrival)

/-- `receive`, called at `start`, returns before its timeout is over. -/
def ReturnsInTime : Prop :=
  ∃ m now rest, receive blacklistIds timeout start as = some (m, now, rest) ∧
    now ≤ start + timeout

/-- `sniff`, called at `start`, returns frames that arrived in its time only. -/
def SniffsInTime : Prop :=
  ∃ retMsgs now rest, sniff blacklistIds timeout start as = some (retMsgs, now, rest) ∧
    ∀ a ∈ retMsgs, a.time ≤ start + timeout

theorem window_kept_iff (hpos : 0 < timeout) :
    (ReturnsInTime blacklistIds timeout start as ↔
      Punctual blacklistIds (start + timeout) start start as) ∧
    (SniffsInTime blacklistIds timeout start as ↔
      Quiet blacklistIds (start + timeout) start start as) := by
  have hbegin : start < start + timeout := by linarith
  constructor
  · rw [← awaited_punctual_iff as le_rfl hbegin]
    constructor
    · rintro ⟨m, now, rest, hreturn, hnow⟩
      rw [receive_returns as hpos, Option.some.injEq] at hreturn
      rw [hreturn]
      exact hnow
    · intro hnow
      exact ⟨_, _, _, receive_returns as hpos, hnow⟩
  · rw [← heard_quiet_iff as le_rfl hbegin]
    obtain ⟨now', rest', hheard⟩ := sniff_returns blacklistIds start as hpos
    constructor
    · rintro ⟨retMsgs, now, rest, hreturn, htimes⟩
      rw [hheard, Option.some.injEq, Prod.mk.injEq] at hreturn
      rw [hreturn.1]
      exact htimes
    · intro htimes
      exact ⟨_, now', rest', hheard, htimes⟩

end Calls

theorem window_kept_clean : ReturnsInTime {1} 1 0 [⟨1/2, ⟨2, false, [7]⟩⟩] ∧
    SniffsInTime {1} 1 0 [⟨1/2, ⟨2, false, [7]⟩⟩] := by
  obtain ⟨hreceive, hsniff⟩ :=
    window_kept_iff {1} 1 0 [⟨1/2, ⟨2, false, [7]⟩⟩] (by decide +kernel)
  refine ⟨hreceive.mpr (.inl ?_), hsniff.mpr fun _ _ a ha => ?_⟩
  · refine ⟨⟨1/2, ⟨2, false, [7]⟩⟩, ?_, ?_⟩
    · decide +kernel
    · decide +kernel
  · have hnone : (behind (0 + 1) [⟨1/2, ⟨2, false, [7]⟩⟩]).head? = none := by decide +kernel
    rw [hnone] at ha
    cases ha

/-- A frame of the blacklist at half of the window, and another a quarter behind its end. -/
def straggler : List Arrival := [⟨1/2, ⟨1, false, []⟩⟩, ⟨5/4, ⟨2, false, [7]⟩⟩]

theorem straggler_received : ¬ ReturnsInTime {1} 1 0 straggler ∧
    ¬ SniffsInTime {1} 1 0 straggler := by
  have hreceive : receive {1} 1 0 straggler =
      some (some ⟨5/4, ⟨2, false, [7]⟩⟩, 5/4, []) := by decide +kernel
  have hsniff : sniff {1} 1 0 straggler =
      some ([⟨5/4, ⟨2, false, [7]⟩⟩], 5/4, []) := by decide +kernel
  constructor
  · rintro ⟨m, now, rest, h, hnow⟩
    cases hreceive.symm.trans h
    exact absurd hnow (by decide +kernel)
  · rintro ⟨retMsgs, now, rest, h, htimes⟩
    cases hsniff.symm.trans h
    exact absurd (htimes _ List.mem_cons_self) (by decide +kernel)

end InVehicle.CanWindow
