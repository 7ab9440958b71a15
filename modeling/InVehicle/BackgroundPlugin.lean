import InVehicle.Runs
import Mathlib.Data.List.Induction

/-!
# Background plugins

`BackgroundPluginBase.start` and `stop`, called one after the other, with the threads
that they start. A thread runs the documented loop: while the stop event is not set,
it works.
-/

set_option autoImplicit false

namespace InVehicle.BackgroundPlugin
open InVehicle.Runs

inductive Phase where
  | testing
  | working
  deriving DecidableEq, Repr

structure Thread where
  id : ℕ
  phase : Phase
  deriving DecidableEq, Repr

/-- Whether a call of `stop` waits in `join`. -/
inductive Caller where
  | idle
  | joining
  deriving DecidableEq, Repr

/-- The fields `_thread` and `_stop_event`, the threads that are alive, the caller,
and the identity of the next thread. -/
structure Plugin where
  thread : Option ℕ
  stopEvent : Bool
  alive : List Thread
  caller : Caller
  fresh : ℕ
  deriving DecidableEq, Repr

inductive Call where
  | start
  | stop
  deriving DecidableEq, Repr

def newPlugin : Plugin := ⟨none, false, [], .idle, 0⟩

def start (s : Plugin) : Plugin :=
  match s.thread with
  | none => { s with
      thread := some s.fresh
      alive := s.alive ++ [⟨s.fresh, .testing⟩]
      fresh := s.fresh + 1 }
  | some _ => s

def stop (s : Plugin) : Plugin :=
  match s.thread with
  | none => s
  | some _ => { s with stopEvent := true, caller := .joining }

/-- A call is made when the one before it has returned. The scheduler interleaves the
internal steps. -/
inductive Step : Plugin → Option Call → Plugin → Prop
  | start {s : Plugin} (h : s.caller = .idle) : Step s (some .start) (start s)
  | stop {s : Plugin} (h : s.caller = .idle) : Step s (some .stop) (stop s)
  | joined {s : Plugin} {i : ℕ} (h : s.caller = .joining) (hthread : s.thread = some i)
      (hdead : ∀ t ∈ s.alive, t.id ≠ i) : Step s none { s with thread := none, caller := .idle }
  | leave {s : Plugin} {i : ℕ} {before behind : List Thread}
      (halive : s.alive = before ++ ⟨i, .testing⟩ :: behind) (hset : s.stopEvent = true) :
      Step s none { s with alive := before ++ behind }
  | enter {s : Plugin} {i : ℕ} {before behind : List Thread}
      (halive : s.alive = before ++ ⟨i, .testing⟩ :: behind) (hset : s.stopEvent = false) :
      Step s none { s with alive := before ++ ⟨i, .working⟩ :: behind }
  | work {s : Plugin} {i : ℕ} {before behind : List Thread}
      (halive : s.alive = before ++ ⟨i, .working⟩ :: behind) :
      Step s none { s with alive := before ++ ⟨i, .testing⟩ :: behind }

/-- The loop runs in the thread of `_thread`. -/
def Running (s : Plugin) : Prop := ∃ i, s.thread = some i ∧ ∃ t ∈ s.alive, t.id = i

def Stopped (s : Plugin) : Prop := s.thread = none ∧ s.alive = []

/-- Never more than one thread; behind a `start` the loop runs, behind a `stop` there is none. -/
def Obeys (calls : List Call) (s : Plugin) : Prop :=
  s.alive.length ≤ 1 ∧ (s.caller = .idle →
    match calls.getLast? with
    | none => True
    | some .start => Running s
    | some .stop => Stopped s)

/-! ## Every run -/

/-- The only thread that may be alive is that of `_thread`. -/
def Single (s : Plugin) : Prop :=
  match s.thread with
  | none => s.alive = []
  | some i => s.alive = [] ∨ ∃ phase, s.alive = [⟨i, phase⟩]

structure Consistent (calls : List Call) (s : Plugin) : Prop where
  single : Single s
  joining : s.caller = .joining → s.stopEvent = true ∧ s.thread.isSome ∧ calls.getLast? = some .stop
  set : s.stopEvent = true → [Call.start, .stop].Sublist calls
  running : s.thread.isSome → s.stopEvent = false → s.alive ≠ []
  started : s.thread.isSome → .start ∈ calls
  last : s.caller = .idle → match calls.getLast? with
    | none => True
    | some .start => s.thread.isSome
    | some .stop => s.thread = none

theorem new_consistent : Consistent [] newPlugin where
  single := rfl
  joining h := by cases h
  set h := by cases h
  running h := by cases h
  started h := by cases h
  last _ := trivial

section Cases
variable {s : Plugin} {i : ℕ}

theorem start_none (h : s.thread = none) : start s =
    ⟨some s.fresh, s.stopEvent, s.alive ++ [⟨s.fresh, .testing⟩], s.caller, s.fresh + 1⟩ := by
  rw [start, h]

theorem start_some (h : s.thread = some i) : start s = s := by
  rw [start, h]

theorem stop_none (h : s.thread = none) : stop s = s := by
  rw [stop, h]

theorem stop_some (h : s.thread = some i) :
    stop s = ⟨s.thread, true, s.alive, .joining, s.fresh⟩ := by
  rw [stop, h]

theorem single_none (h : s.thread = none) : Single s ↔ s.alive = [] := by
  rw [Single, h]

theorem single_some (h : s.thread = some i) :
    Single s ↔ s.alive = [] ∨ ∃ phase, s.alive = [⟨i, phase⟩] := by
  rw [Single, h]

theorem single_nil (h : s.thread = some i) : Single { s with alive := [] } := by
  rw [Single, h]
  exact .inl rfl

theorem single_one (h : s.thread = some i) (phase : Phase) :
    Single { s with alive := [⟨i, phase⟩] } := by
  rw [Single, h]
  exact .inr ⟨phase, rfl⟩

end Cases

theorem single_alive {s : Plugin} (h : Single s) {t : Thread} {before behind : List Thread}
    (halive : s.alive = before ++ t :: behind) :
    before = [] ∧ behind = [] ∧ s.thread = some t.id := by
  cases hthread : s.thread with
  | none =>
    rw [single_none hthread] at h
    rw [h] at halive
    simp at halive
  | some i =>
    obtain hnil | ⟨phase, hone⟩ := (single_some hthread).mp h
    · rw [hnil] at halive
      simp at halive
    · rw [hone, List.singleton_eq_append_iff] at halive
      obtain ⟨hbefore, hcons⟩ | ⟨-, hcons⟩ := halive
      · obtain ⟨rfl, rfl⟩ := List.cons.inj hcons
        exact ⟨hbefore, rfl, rfl⟩
      · cases hcons

theorem internal_consistent {calls : List Call} {s s' : Plugin} (h : Consistent calls s)
    (hstep : Step s none s') : Consistent calls s' := by
  cases hstep with
  | @joined i hcaller hthread hdead =>
    have hnil : s.alive = [] := by
      refine ((single_some hthread).mp h.single).resolve_right ?_
      rintro ⟨phase, hone⟩
      exact hdead ⟨i, phase⟩ (by rw [hone]; exact List.mem_singleton_self _) rfl
    refine ⟨hnil, nofun, h.set, nofun, nofun, ?_⟩
    intro _
    rw [(h.joining hcaller).2.2]
  | leave halive hset =>
    obtain ⟨rfl, rfl, hthread⟩ := single_alive h.single halive
    refine ⟨single_nil hthread, h.joining, h.set, ?_, h.started, h.last⟩
    intro _ hclear
    rw [hset] at hclear
    cases hclear
  | enter halive hset =>
    obtain ⟨rfl, rfl, hthread⟩ := single_alive h.single halive
    exact ⟨single_one hthread _, h.joining, h.set,
      fun _ _ => List.cons_ne_nil _ _, h.started, h.last⟩
  | work halive =>
    obtain ⟨rfl, rfl, hthread⟩ := single_alive h.single halive
    exact ⟨single_one hthread _, h.joining, h.set,
      fun _ _ => List.cons_ne_nil _ _, h.started, h.last⟩

theorem start_consistent {calls : List Call} {s : Plugin} (h : Consistent calls s)
    (hidle : s.caller = .idle) : Consistent (calls ++ [.start]) (start s) := by
  have hset : s.stopEvent = true → [Call.start, .stop].Sublist (calls ++ [.start]) :=
    fun htrue => (h.set htrue).trans (List.sublist_append_left _ _)
  have hmem : Call.start ∈ calls ++ [.start] := List.mem_append_right _ (List.mem_singleton_self _)
  have hnot : s.caller ≠ .joining := by
    rw [hidle]
    decide
  cases hthread : s.thread with
  | none =>
    have hnil := (single_none hthread).mp h.single
    rw [start_none hthread, hnil]
    refine ⟨.inr ⟨.testing, rfl⟩, fun hjoining => absurd hjoining hnot, hset,
      fun _ _ => List.cons_ne_nil _ _, fun _ => hmem, ?_⟩
    intro _
    rw [List.getLast?_concat]
    rfl
  | some i =>
    rw [start_some hthread]
    refine ⟨h.single, fun hjoining => absurd hjoining hnot, hset, h.running, fun _ => hmem, ?_⟩
    intro _
    rw [List.getLast?_concat, hthread]
    rfl

theorem stop_consistent {calls : List Call} {s : Plugin} (h : Consistent calls s)
    (hidle : s.caller = .idle) : Consistent (calls ++ [.stop]) (stop s) := by
  have hnot : s.caller ≠ .joining := by
    rw [hidle]
    decide
  have hstarted : s.thread.isSome → Call.start ∈ calls ++ [.stop] :=
    fun hsome => List.mem_append_left _ (h.started hsome)
  cases hthread : s.thread with
  | none =>
    rw [stop_none hthread]
    refine ⟨h.single, fun hjoining => absurd hjoining hnot, ?_, h.running, hstarted, ?_⟩
    · exact fun htrue => (h.set htrue).trans (List.sublist_append_left _ _)
    · intro _
      rw [List.getLast?_concat]
      exact hthread
  | some i =>
    have hsome : s.thread.isSome := by
      rw [hthread]
      rfl
    rw [stop_some hthread]
    refine ⟨h.single, fun _ => ⟨rfl, hsome, List.getLast?_concat⟩, fun _ => ?_, ?_, hstarted, ?_⟩
    · exact (List.singleton_sublist.mpr (h.started hsome)).append (List.Sublist.refl [Call.stop])
    · intro _ hclear
      cases hclear
    · intro hjoining
      cases hjoining

theorem run_consistent {calls : List Call} {s : Plugin} (h : Run Step newPlugin calls s) :
    Consistent calls s := by
  refine run_history Consistent ?_ ?_ h new_consistent
  · exact fun _ _ _ hs hstep => internal_consistent hs hstep
  · intro calls s call s' hs hstep
    cases hstep with
    | start hidle => exact start_consistent hs hidle
    | stop hidle => exact stop_consistent hs hidle

/-! ## Restarting -/

/-- The calls have no `start` behind a `stop` that had a thread to stop. -/
def NoRestart (calls : List Call) : Prop := ¬ [Call.start, .stop, .start].Sublist calls

theorem sublist_concat_of_ne {α : Type} {a b c : α} {l : List α} (h : [a, b].Sublist (l ++ [c]))
    (hne : b ≠ c) : [a, b].Sublist l := by
  have hrev : [b, a].Sublist (c :: l.reverse) := by
    rw [← List.reverse_concat]
    exact h.reverse
  obtain hrest | ⟨r, hr, -⟩ := List.sublist_cons_iff.mp hrev
  · exact List.reverse_sublist.mp hrest
  · exact absurd (List.cons.inj hr).1 hne

theorem single_length {s : Plugin} (h : Single s) : s.alive.length ≤ 1 := by
  cases hthread : s.thread with
  | none =>
    rw [(single_none hthread).mp h]
    exact Nat.zero_le 1
  | some i =>
    obtain hnil | ⟨phase, hone⟩ := (single_some hthread).mp h
    · rw [hnil]
      exact Nat.zero_le 1
    · rw [hone]
      exact Nat.le_refl 1

/-- Without a restart the stop event is clear once the last call is a `start`. -/
theorem clear_of_noRestart {calls : List Call} {s : Plugin} (h : Consistent (calls ++ [.start]) s)
    (hcalls : NoRestart (calls ++ [.start])) : s.stopEvent = false := by
  apply Bool.eq_false_iff.mpr
  intro hset
  have hsub := sublist_concat_of_ne (h.set hset) (by decide)
  exact hcalls (hsub.append (List.Sublist.refl [Call.start]))

theorem consistent_obeys {calls : List Call} {s : Plugin} (h : Consistent calls s)
    (hcalls : NoRestart calls) : Obeys calls s := by
  refine ⟨single_length h.single, ?_⟩
  intro hidle
  have hlast := h.last hidle
  match hcall : calls.getLast? with
  | none => trivial
  | some .start =>
    rw [hcall] at hlast
    obtain ⟨before, rfl⟩ := List.getLast?_eq_some_iff.mp hcall
    have hclear := clear_of_noRestart h hcalls
    obtain ⟨i, hthread⟩ := Option.isSome_iff_exists.mp hlast
    have hsingle := (single_some hthread).mp h.single
    obtain ⟨phase, hone⟩ := hsingle.resolve_left (h.running hlast hclear)
    exact ⟨i, hthread, ⟨i, phase⟩, by rw [hone]; exact List.mem_singleton_self _, rfl⟩
  | some .stop =>
    rw [hcall] at hlast
    exact ⟨hlast, (single_none hlast).mp h.single⟩

/-! ## A schedule under which every call returns -/

structure Settled (calls : List Call) (s : Plugin) : Prop where
  idle : s.caller = .idle
  none_alive : s.thread = none → s.alive = []
  one_alive : ∀ i, s.thread = some i → s.alive = [⟨i, .testing⟩]
  started : .start ∈ calls → s.thread.isSome ∨ s.stopEvent = true
  stopped : [Call.start, .stop].Sublist calls → s.stopEvent = true

theorem settled_start {calls : List Call} {s : Plugin} (h : Settled calls s) :
    (start s).thread.isSome ∧ Settled (calls ++ [.start]) (start s) := by
  have hstopped : [Call.start, .stop].Sublist (calls ++ [.start]) → s.stopEvent = true :=
    fun hsub => h.stopped (sublist_concat_of_ne hsub (by decide))
  cases hthread : s.thread with
  | none =>
    rw [start_none hthread, h.none_alive hthread]
    refine ⟨rfl, h.idle, nofun, ?_, fun _ => .inl rfl, hstopped⟩
    intro i hi
    cases hi
    rfl
  | some i =>
    have hsome : s.thread.isSome := by
      rw [hthread]
      rfl
    rw [start_some hthread]
    exact ⟨hsome, h.idle, h.none_alive, h.one_alive, fun _ => .inl hsome, hstopped⟩

theorem leave_alone {s : Plugin} {i : ℕ} (h : s.alive = [⟨i, .testing⟩])
    (hset : s.stopEvent = true) : Step s none { s with alive := [] } := by
  have halive : s.alive = [] ++ ⟨i, .testing⟩ :: [] := h
  exact Step.leave halive hset

/-- The thread sees the event at its next test, and `join` returns. -/
theorem settled_stop {calls : List Call} {s : Plugin} (h : Settled calls s) :
    ∃ t, Run Step s [.stop] t ∧ Settled (calls ++ [.stop]) t := by
  have hmem : Call.start ∈ calls ++ [.stop] → .start ∈ calls := by
    simp
  cases hthread : s.thread with
  | none =>
    have hstep := Step.stop h.idle
    rw [stop_none hthread] at hstep
    refine ⟨s, .event hstep (.nil s), h.idle, h.none_alive, h.one_alive,
      fun hstart => h.started (hmem hstart), ?_⟩
    intro hsub
    have hstart := hmem (hsub.subset List.mem_cons_self)
    refine (h.started hstart).resolve_left ?_
    rw [hthread]
    exact Bool.false_ne_true
  | some i =>
    have hstep := Step.stop h.idle
    rw [stop_some hthread, h.one_alive i hthread] at hstep
    have hleave : Step ⟨s.thread, true, [⟨i, .testing⟩], .joining, s.fresh⟩ none
        ⟨s.thread, true, [], .joining, s.fresh⟩ := leave_alone rfl rfl
    have hjoined : Step ⟨s.thread, true, [], .joining, s.fresh⟩ none
        ⟨none, true, [], .idle, s.fresh⟩ := Step.joined rfl hthread (List.forall_mem_nil _)
    refine ⟨_, .event hstep (.internal hleave (.internal hjoined (.nil _))), rfl, fun _ => rfl,
      nofun, fun _ => .inr rfl, fun _ => rfl⟩

theorem settled_run (calls : List Call) : ∃ s, Run Step newPlugin calls s ∧ Settled calls s := by
  induction calls using List.reverseRecOn with
  | nil => exact ⟨newPlugin, .nil _, rfl, fun _ => rfl, nofun, nofun, nofun⟩
  | append_singleton calls call ih =>
    obtain ⟨s, hrun, hs⟩ := ih
    cases call with
    | start =>
      exact ⟨start s, run_append hrun (.event (.start hs.idle) (.nil _)), (settled_start hs).2⟩
    | stop =>
      obtain ⟨t, hstop, ht⟩ := settled_stop hs
      exact ⟨t, run_append hrun hstop, ht⟩

theorem restarted_leaves {calls : List Call} (h : [Call.start, .stop].Sublist calls) :
    ∃ s, Run Step newPlugin (calls ++ [.start]) s ∧ ¬ Obeys (calls ++ [.start]) s := by
  obtain ⟨s, hrun, hs⟩ := settled_run calls
  obtain ⟨hsome, ht⟩ := settled_start hs
  obtain ⟨i, hthread⟩ := Option.isSome_iff_exists.mp hsome
  have hset : (start s).stopEvent = true := ht.stopped (h.trans (List.sublist_append_left _ _))
  have hleave : Step (start s) none { start s with alive := [] } :=
    leave_alone (ht.one_alive i hthread) hset
  refine ⟨{ start s with alive := [] },
    run_append hrun (.event (.start hs.idle) (.internal hleave (.nil _))), ?_⟩
  intro hobeys
  have hlast := hobeys.2 ht.idle
  rw [List.getLast?_concat] at hlast
  obtain ⟨j, -, t, hmem, -⟩ := hlast
  cases hmem

/-- Every run through the calls obeys them exactly if the plugin is not started again
after it has been stopped. -/
theorem restart_iff (calls : List Call) :
    (∀ before, before <+: calls → ∀ s, Run Step newPlugin before s → Obeys before s) ↔
      NoRestart calls := by
  constructor
  · intro h hsub
    have hsplit : ([Call.start, .stop] ++ [Call.start]).Sublist calls := hsub
    obtain ⟨r₁, r₂, rfl, h₁, h₂⟩ := List.append_sublist_iff.mp hsplit
    obtain ⟨u, v, rfl⟩ := List.append_of_mem (List.singleton_sublist.mp h₂)
    obtain ⟨s, hrun, hnot⟩ := restarted_leaves (h₁.trans (List.sublist_append_left r₁ u))
    have hprefix : r₁ ++ u ++ [Call.start] <+: r₁ ++ (u ++ Call.start :: v) := ⟨v, by simp⟩
    exact hnot (h _ hprefix s hrun)
  · intro h before hprefix s hrun
    exact consistent_obeys (run_consistent hrun) fun hsub => h (hsub.trans hprefix.sublist)

/-- The second `start` finds the event set: its thread ends at once, with no call to stop it. -/
theorem second_start_ends :
    ∃ s, Run Step newPlugin [.start, .stop, .start] s ∧ ¬ Obeys [.start, .stop, .start] s ∧
      s.thread = some 1 ∧ s.alive = [] := by
  refine ⟨⟨some 1, true, [], .idle, 2⟩, ?_, ?_, rfl, rfl⟩
  · apply Run.event (Step.start rfl)
    apply Run.event (Step.stop rfl)
    apply Run.internal (leave_alone (i := 0) rfl rfl)
    apply Run.internal (Step.joined (i := 0) rfl rfl (List.forall_mem_nil _))
    apply Run.event (Step.start rfl)
    exact Run.internal (leave_alone (i := 1) rfl rfl) (.nil _)
  · rintro ⟨-, h⟩
    obtain ⟨j, -, t, hmem, -⟩ := h rfl
    cases hmem

end InVehicle.BackgroundPlugin
