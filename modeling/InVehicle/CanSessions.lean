import InVehicle.CanWindow
import InVehicle.Histories

/-!
# The blacklist in a session

Calls of `receive`, `sniff` and `add_to_blacklist` on a schedule of arrivals, with any
time between them. A call shows the frames that are not on the blacklist, as if the
others were not on the bus.
-/

set_option autoImplicit false

namespace InVehicle.CanSessions
open InVehicle.CanSocketCan (CanCommunicatorSocketCan CanError addToBlacklist mem_addToBlacklist)
open InVehicle.CanWindow (Arrival Passes Quiet awaited behind heard heard_late quiet_early
  quiet_ended quiet_late_iff receive_returns sniffLoop sniff_returns within within_early
  within_late)
open InVehicle.Histories

/-- A communicator on its schedule of arrivals, and the clock. -/
structure State where
  communicator : CanCommunicatorSocketCan (List Arrival)
  now : ℚ

abbrev Answer (α : Type) := Except CanError α × State

namespace State

variable (s : State)

def blacklistIds : Finset ℕ := s.communicator.blacklistIds

def arrivals : List Arrival := s.communicator.bus.getD []

def after (now : ℚ) (rest : List Arrival) : State :=
  ⟨{ s.communicator with bus := some rest }, now⟩

/-- `receive`, `none` while it waits. A timeout of 0 is no timeout. -/
def receive (timeout : Option ℚ) : Option (Answer (Option Arrival)) :=
  match s.communicator.bus with
  | none => some (.error .notOpened, s)
  | some as =>
    if timeout.getD 0 = 0 then
      match as with
      | [] => none
      | a :: rest => some (.ok (if Passes s.blacklistIds a then some a else none),
          s.after (max s.now a.time) rest)
    else (CanWindow.receive s.blacklistIds (timeout.getD 0) s.now as).map fun (m, now, rest) =>
      (.ok m, s.after now rest)

def sniff (sniffTime : ℚ) : Option (Answer (List Arrival)) :=
  match s.communicator.bus with
  | none => some (.error .notOpened, s)
  | some as => (CanWindow.sniff s.blacklistIds sniffTime s.now as).map fun (retMsgs, now, rest) =>
      (.ok retMsgs, s.after now rest)

end State

inductive Op where
  | receive (timeout : Option ℚ)
  | sniff (sniffTime : ℚ)
  | addToBlacklist (canids : List ℕ)
  | later (time : ℚ)
  deriving DecidableEq, Repr

/-- The state behind a call, `none` once a call is left waiting. -/
def perform : Option State → Op → Option State
  | none, _ => none
  | some s, .receive timeout => (s.receive timeout).map Prod.snd
  | some s, .sniff sniffTime => (s.sniff sniffTime).map Prod.snd
  | some s, .addToBlacklist canids => some ⟨addToBlacklist s.communicator canids, s.now⟩
  | some s, .later time => some ⟨s.communicator, max s.now time⟩

/-! ## The bus without the blacklisted frames -/

def visible (blacklistIds : Finset ℕ) (as : List Arrival) : List Arrival :=
  as.filter fun a => Passes blacklistIds a

def State.view (s : State) : List Arrival := visible s.blacklistIds s.arrivals

def State.window (s : State) (sniffTime : ℚ) : List Arrival :=
  if 0 < sniffTime then visible s.blacklistIds (within (s.now + sniffTime) s.arrivals) else []

/-- The call does to the view what it would do to a bus that has only the frames of the
view: `receive` returns the first of them and waits if there is none, `sniff` returns
those of its window. -/
def Transparent : Option State → Op → Prop
  | none, _ => True
  | some s, .receive timeout =>
    match s.receive timeout with
    | none => s.view = []
    | some (answer, t) => ∃ a, answer = .ok (some a) ∧ s.view = a :: t.view ∧
        t.arrivals <:+ s.arrivals
  | some s, .sniff sniffTime => ∃ t, s.sniff sniffTime = some (.ok (s.window sniffTime), t) ∧
      s.view = s.window sniffTime ++ t.view ∧ t.arrivals <:+ s.arrivals
  | some s, .addToBlacklist canids =>
    visible (addToBlacklist s.communicator canids).blacklistIds s.arrivals =
      s.view.filter fun a => a.message.arbitrationId ∉ canids
  | some s, .later time => (perform (some s) (.later time)).map State.view = some s.view

/-- A frame of the view comes by the end of the window, and the clock does not reach
that end before. -/
def Comes (blacklistIds : Finset ℕ) (ending : ℚ) (as : List Arrival) : Prop :=
  (∀ a ∈ as.takeWhile fun a => ¬ Passes blacklistIds a, a.time < ending) ∧
    ∃ a ∈ (as.dropWhile fun a => ¬ Passes blacklistIds a).head?, a.time ≤ ending

/-- The bus is open, and a timeout that is given does not expire. -/
def Prompt : Option State → Op → Prop
  | some s, .receive timeout => s.communicator.bus.isSome ∧ (timeout.getD 0 = 0 ∨
      0 < timeout.getD 0 ∧ Comes s.blacklistIds (s.now + timeout.getD 0) s.arrivals)
  | some s, .sniff _ => s.communicator.bus.isSome
  | _, _ => True

/-- Behind the first frame at the very end of a window there is none of the view. -/
def Tidy (blacklistIds : Finset ℕ) (ending : ℚ) (as : List Arrival) : Prop :=
  ∀ a ∈ ((within ending as).dropWhile (·.time < ending)).tail, ¬ Passes blacklistIds a

/-- The frame that a call without a timeout finds next is not on the blacklist. A sniff
reads no frame that comes behind its window, and all that come in it. -/
def Clear : Option State → Op → Prop
  | some s, .receive timeout =>
    timeout.getD 0 = 0 → ∀ a ∈ s.arrivals.head?, Passes s.blacklistIds a
  | some s, .sniff sniffTime => 0 < sniffTime →
    Quiet s.blacklistIds (s.now + sniffTime) s.now s.now s.arrivals ∧
      Tidy s.blacklistIds (s.now + sniffTime) s.arrivals
  | _, _ => True

section Views
variable {blacklistIds : Finset ℕ} {begun now ending : ℚ} {a : Arrival} {as : List Arrival}

theorem visible_passes (h : Passes blacklistIds a) (as : List Arrival) :
    visible blacklistIds (a :: as) = a :: visible blacklistIds as :=
  List.filter_cons_of_pos (decide_eq_true h)

theorem visible_dropped (h : ¬ Passes blacklistIds a) (as : List Arrival) :
    visible blacklistIds (a :: as) = visible blacklistIds as :=
  List.filter_cons_of_neg (by simpa using h)

theorem awaited_view (blacklistIds : Finset ℕ) (ending begun now : ℚ) (as : List Arrival) :
    visible blacklistIds as = (awaited blacklistIds ending begun now as).1.toList ++
        visible blacklistIds (awaited blacklistIds ending begun now as).2.2 ∧
      (awaited blacklistIds ending begun now as).2.2 <:+ as := by
  induction as generalizing now with
  | nil => exact ⟨rfl, List.suffix_rfl⟩
  | cons a as ih =>
    rw [awaited]
    by_cases hcome : a.time ≤ now + (ending - begun)
    · rw [if_pos hcome]
      by_cases hpass : Passes blacklistIds a
      · rw [if_pos hpass]
        exact ⟨visible_passes hpass as, List.suffix_cons a as⟩
      · rw [if_neg hpass, visible_dropped hpass]
        by_cases hearly : max now a.time < ending
        · rw [if_pos hearly]
          obtain ⟨hview, hsuffix⟩ := ih (max now a.time)
          exact ⟨hview, hsuffix.trans (List.suffix_cons a as)⟩
        · rw [if_neg hearly]
          exact ⟨rfl, List.suffix_cons a as⟩
    · rw [if_neg hcome]
      exact ⟨rfl, List.suffix_rfl⟩

theorem sniffLoop_view {n : ℕ} {timeout now' : ℚ} {rest retMsgs : List Arrival}
    (h : sniffLoop blacklistIds timeout begun n now as = some (retMsgs, now', rest)) :
    visible blacklistIds as = retMsgs ++ visible blacklistIds rest ∧ rest <:+ as := by
  induction n generalizing now as retMsgs with
  | zero => cases h
  | succ n ih =>
    rw [sniffLoop] at h
    by_cases htime : now - begun < timeout
    · rw [if_pos htime, receive_returns as (by linarith), Option.bind_eq_bind,
        Option.bind_some] at h
      obtain ⟨⟨ms, now₂, rest₂⟩, hloop, hreturn⟩ := Option.bind_eq_some_iff.mp h
      cases hreturn
      obtain ⟨hview, hsuffix⟩ := awaited_view blacklistIds (now + (timeout - (now - begun))) now now
        as
      obtain ⟨hview', hsuffix'⟩ := ih hloop
      exact ⟨by rw [hview, hview', List.append_assoc], hsuffix'.trans hsuffix⟩
    · rw [if_neg htime] at h
      cases h
      exact ⟨rfl, List.suffix_rfl⟩

theorem awaited_comes (hbegun : begun ≤ now) (hnow : now < ending)
    (h : Comes blacklistIds ending as) :
    ∃ a, (awaited blacklistIds ending begun now as).1 = some a := by
  induction as generalizing now with
  | nil =>
    obtain ⟨-, a, ha, -⟩ := h
    cases ha
  | cons a as ih =>
    rw [awaited]
    by_cases hpass : Passes blacklistIds a
    · obtain ⟨-, b, hb, hin⟩ := h
      rw [List.dropWhile_cons_of_neg (by simpa using hpass)] at hb
      cases hb
      rw [if_pos (by linarith), if_pos hpass]
      exact ⟨a, rfl⟩
    · obtain ⟨hblocked, hnext⟩ := h
      rw [List.takeWhile_cons_of_pos (by simpa using hpass), List.forall_mem_cons] at hblocked
      rw [List.dropWhile_cons_of_pos (by simpa using hpass)] at hnext
      have hearly : max now a.time < ending := max_lt hnow hblocked.1
      rw [if_pos (by linarith), if_neg hpass, if_pos hearly]
      exact ih (hbegun.trans (le_max_left now a.time)) hearly ⟨hblocked.2, hnext⟩

theorem tidy_early (h : a.time < ending) (as : List Arrival) :
    Tidy blacklistIds ending (a :: as) ↔ Tidy blacklistIds ending as := by
  rw [Tidy, Tidy, within_early h.le, List.dropWhile_cons_of_pos (by simpa using h)]

theorem tidy_end (hin : a.time ≤ ending) (h : ¬ a.time < ending) (as : List Arrival) :
    Tidy blacklistIds ending (a :: as) ↔ visible blacklistIds (within ending as) = [] := by
  rw [Tidy, within_early hin, List.dropWhile_cons_of_neg (by simpa using h), List.tail_cons,
    visible, List.filter_eq_nil_iff]
  simp only [decide_eq_true_eq]

theorem tidy_late (h : ¬ a.time ≤ ending) (as : List Arrival) :
    Tidy blacklistIds ending (a :: as) := by
  rw [Tidy, within_late h]
  intro b hb
  cases hb

theorem heard_window_iff (as : List Arrival) (hbegun : begun ≤ now) (hnow : now < ending) :
    heard blacklistIds ending begun now as = visible blacklistIds (within ending as) ↔
      Quiet blacklistIds ending begun now as ∧ Tidy blacklistIds ending as := by
  induction as generalizing begun now with
  | nil =>
    refine iff_of_true rfl ⟨fun _ _ b hb => ?_, fun b hb => ?_⟩
    · cases hb
    · cases hb
  | cons a as ih =>
    by_cases hin : a.time ≤ ending
    · rw [heard, quiet_early as hin, within_early hin, if_pos (by linarith)]
      by_cases hearly : max now a.time < ending
      · rw [tidy_early ((le_max_right now a.time).trans_lt hearly)]
        by_cases hpass : Passes blacklistIds a
        · rw [if_pos hpass, if_pos hpass, if_pos hearly, visible_passes hpass, List.cons.injEq,
            and_iff_right rfl]
          exact ih le_rfl hearly
        · rw [if_neg hpass, if_neg hpass, if_pos hearly, visible_dropped hpass]
          exact ih (hbegun.trans (le_max_left now a.time)) hearly
      · have hend : ¬ a.time < ending := fun h => hearly (max_lt hnow h)
        rw [and_iff_right (quiet_ended as hearly), tidy_end hin hend]
        by_cases hpass : Passes blacklistIds a
        · rw [if_pos hpass, if_neg hearly, visible_passes hpass, List.cons.injEq,
            and_iff_right rfl]
          exact eq_comm
        · rw [if_neg hpass, if_neg hearly, visible_dropped hpass]
          exact eq_comm
    · rw [heard_late as hin, quiet_late_iff as hin hbegun hnow, within_late hin,
        and_iff_left (tidy_late hin as)]
      by_cases hheard : a.time ≤ now + (ending - begun) ∧ Passes blacklistIds a
      · rw [if_pos hheard]
        refine iff_of_false (fun h => ?_) fun h => h hheard
        cases h
      · rw [if_neg hheard]
        exact iff_of_true rfl hheard

end Views

/-! ## Sessions -/

section Calls
variable {s : State} {as : List Arrival}

theorem State.arrivals_of_bus (h : s.communicator.bus = some as) : s.arrivals = as := by
  rw [State.arrivals, h, Option.getD_some]

theorem transparent_untimed (h : s.communicator.bus = some as) {timeout : Option ℚ}
    (h0 : timeout.getD 0 = 0) :
    Transparent (some s) (.receive timeout) ↔ Clear (some s) (.receive timeout) := by
  have harrivals := State.arrivals_of_bus h
  simp only [Transparent, Clear, State.receive, State.view, h, h0, if_true, true_imp_iff,
    harrivals]
  cases as with
  | nil => simp [visible]
  | cons a rest =>
    simp only [List.head?_cons, Option.mem_some_iff, forall_eq']
    by_cases hpass : Passes s.blacklistIds a
    · refine iff_of_true ⟨a, by rw [if_pos hpass], ?_, List.suffix_cons a rest⟩ hpass
      exact visible_passes hpass rest
    · refine iff_of_false ?_ hpass
      rintro ⟨b, hb, -⟩
      rw [if_neg hpass] at hb
      cases hb

theorem transparent_timed (h : s.communicator.bus = some as) {timeout : Option ℚ}
    (hpos : 0 < timeout.getD 0)
    (hcomes : Comes s.blacklistIds (s.now + timeout.getD 0) as) :
    Transparent (some s) (.receive timeout) := by
  have hend : s.now < s.now + timeout.getD 0 := by linarith
  obtain ⟨a, ha⟩ := awaited_comes le_rfl hend hcomes
  obtain ⟨hview, hsuffix⟩ := awaited_view s.blacklistIds (s.now + timeout.getD 0) s.now s.now as
  rw [ha] at hview
  simp only [Transparent, State.receive, State.view, h, if_neg hpos.ne',
    State.arrivals_of_bus h, receive_returns as hpos, Option.map_some]
  exact ⟨a, congrArg Except.ok ha, hview, hsuffix⟩

theorem transparent_sniff (h : s.communicator.bus = some as) (sniffTime : ℚ) :
    Transparent (some s) (.sniff sniffTime) ↔ Clear (some s) (.sniff sniffTime) := by
  simp only [Transparent, Clear, State.sniff, State.view, State.window, h,
    State.arrivals_of_bus h]
  by_cases hpos : 0 < sniffTime
  · simp only [hpos, if_true, true_imp_iff]
    have hend : s.now < s.now + sniffTime := by linarith
    obtain ⟨now, rest, hsniff⟩ := sniff_returns s.blacklistIds s.now as hpos
    obtain ⟨hview, hsuffix⟩ := sniffLoop_view hsniff
    rw [← heard_window_iff as le_rfl hend, hsniff]
    constructor
    · rintro ⟨t, hreturn, -⟩
      rw [Option.map_some, Option.some.injEq, Prod.mk.injEq, Except.ok.injEq] at hreturn
      exact hreturn.1
    · intro hheard
      rw [← hheard]
      exact ⟨_, rfl, hview, hsuffix⟩
  · simp only [hpos, if_false, false_imp_iff, iff_true]
    have hsniff : CanWindow.sniff s.blacklistIds sniffTime s.now as = some ([], s.now, as) := by
      rw [CanWindow.sniff, sniffLoop, if_neg (by linarith)]
    rw [hsniff]
    exact ⟨_, rfl, rfl, List.suffix_rfl⟩

theorem transparent_add (canids : List ℕ) :
    Transparent (some s) (.addToBlacklist canids) := by
  show visible _ _ = _
  rw [State.view, visible, visible, List.filter_filter]
  refine List.filter_congr fun a _ => ?_
  rw [← Bool.decide_and, decide_eq_decide, Passes, Passes, mem_addToBlacklist, not_or]
  exact and_comm

theorem transparent_iff (s : Option State) (op : Op) (h : Prompt s op) :
    Transparent s op ↔ Clear s op := by
  cases s with
  | none => exact iff_of_true trivial (by cases op <;> trivial)
  | some s =>
    cases op with
    | receive timeout =>
      obtain ⟨hopen, htimeout⟩ := h
      obtain ⟨as, has⟩ := Option.isSome_iff_exists.mp hopen
      rw [State.arrivals_of_bus has] at htimeout
      rcases htimeout with h0 | ⟨hpos, hcomes⟩
      · exact transparent_untimed has h0
      · exact iff_of_true (transparent_timed has hpos hcomes) fun h0 => absurd h0 hpos.ne'
    | sniff sniffTime =>
      obtain ⟨as, has⟩ := Option.isSome_iff_exists.mp h
      exact transparent_sniff has sniffTime
    | addToBlacklist canids => exact iff_of_true (transparent_add canids) trivial
    | later time => exact iff_of_true rfl trivial

end Calls

/-- Blacklisted frames are invisible to a session exactly if no call without a timeout
finds one of them next, and no sniff leaves its window. -/
theorem session_iff (s : State) (ops : List Op) (h : Each perform Prompt (some s) ops) :
    Each perform Transparent (some s) ops ↔ Each perform Clear (some s) ops :=
  each_congr ops h transparent_iff

section Decisions
variable (blacklistIds : Finset ℕ) (ending begun now : ℚ) (as : List Arrival)

instance : Decidable (Quiet blacklistIds ending begun now as) :=
  inferInstanceAs (Decidable (_ → _ → ∀ a ∈ (behind ending as).head?, _ → _))

instance : Decidable (Tidy blacklistIds ending as) :=
  inferInstanceAs (Decidable (∀ a ∈ List.tail _, _))

instance : Decidable (Comes blacklistIds ending as) :=
  inferInstanceAs (Decidable ((∀ a ∈ as.takeWhile fun a => ¬ Passes blacklistIds a,
    a.time < ending) ∧
      ∃ a ∈ (as.dropWhile fun a => ¬ Passes blacklistIds a).head?, a.time ≤ ending))

instance : ∀ s op, Decidable (Prompt s op)
  | none, _ => isTrue trivial
  | some _, .receive _ => inferInstanceAs (Decidable (_ ∧ (_ ∨ _ ∧ _)))
  | some s, .sniff _ => inferInstanceAs (Decidable s.communicator.bus.isSome)
  | some _, .addToBlacklist _ | some _, .later _ => isTrue trivial

instance : ∀ s op, Decidable (Clear s op)
  | none, _ => isTrue trivial
  | some _, .receive _ => inferInstanceAs (Decidable (_ → ∀ a ∈ List.head? _, _))
  | some _, .sniff _ => inferInstanceAs (Decidable (_ → _ ∧ _))
  | some _, .addToBlacklist _ | some _, .later _ => isTrue trivial

end Decisions

def frame (time : ℚ) (id : ℕ) : Arrival := ⟨time, ⟨id, false, [0x44]⟩⟩

/-- Frames of 0x401 and 0x404 in turn, of which the first is on the blacklist. -/
def mixedBus : State :=
  ⟨⟨some [frame 0 0x401, frame (1/2) 0x404, frame 1 0x404, frame (3/2) 0x401, frame 2 0x404,
    frame 4 0x404], {0x401}⟩, 0⟩

/-- A call with a timeout, a call without one in front of a frame that is not on the
blacklist, and two seconds of sniffing. -/
def mixedOps : List Op :=
  [.receive (some 1), .receive none, .sniff 2, .addToBlacklist [0x404], .later 5, .sniff 1]

theorem session_mixed : Each perform Transparent (some mixedBus) mixedOps ∧
    ((run perform (some mixedBus) (mixedOps.take 2)).bind fun s => (s.sniff 2).map Prod.fst) =
      some (.ok [frame 2 0x404]) ∧
    (run perform (some mixedBus) mixedOps).map State.arrivals = some [] :=
  ⟨(session_iff mixedBus mixedOps (by decide +kernel)).mpr (by decide +kernel),
    by decide +kernel, by decide +kernel⟩

/-- Without a timeout the blacklisted frame comes back as no frame at all. -/
theorem blacklisted_seen : Each perform Prompt (some mixedBus) [.receive none] ∧
    ¬ Each perform Transparent (some mixedBus) [.receive none] ∧
    (mixedBus.receive none).map Prod.fst = some (.ok none) := by
  refine ⟨by decide +kernel, ?_, rfl⟩
  rintro ⟨⟨a, ha, -⟩, -⟩
  cases ha

end InVehicle.CanSessions
