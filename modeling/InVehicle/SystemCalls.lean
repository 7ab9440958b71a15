import InVehicle.Effect
import Mathlib.Data.List.Infix

/-!
# Calls of a system

A component uses a system by calls, each with its own kind of reply. The system answers
or fails as it likes, by all that has been called before, and the log keeps every call
with its reply, oldest first.
-/

set_option autoImplicit false

namespace InVehicle.SystemCalls
open InVehicle.Effect

structure Interface where
  Call : Type
  Reply : Call → Type
  Failure : Type

structure Event (I : Interface) where
  call : I.Call
  reply : Except I.Failure (I.Reply call)

abbrev System (I : Interface) : Type :=
  List (Event I) → (call : I.Call) → Except I.Failure (I.Reply call)

structure Traced (I : Interface) (σ : Type) where
  state : σ
  log : List (Event I)

variable {I : Interface} {σ α : Type}

namespace Traced

def called (s : Traced I σ) (event : Event I) : Traced I σ := ⟨s.state, s.log ++ [event]⟩

def update (f : σ → σ) (s : Traced I σ) : Traced I σ := ⟨f s.state, s.log⟩

@[simp] theorem called_state (s : Traced I σ) (event : Event I) :
    (s.called event).state = s.state := rfl

@[simp] theorem called_log (s : Traced I σ) (event : Event I) :
    (s.called event).log = s.log ++ [event] := rfl

@[simp] theorem update_state (f : σ → σ) (s : Traced I σ) : (s.update f).state = f s.state := rfl

@[simp] theorem update_log (f : σ → σ) (s : Traced I σ) : (s.update f).log = s.log := rfl

end Traced

section Programs
variable (os : System I)

def perform (call : I.Call) : Prog (Traced I σ) I.Failure (I.Reply call) := fun s =>
  (os s.log call, s.called ⟨call, os s.log call⟩)

def performAll : List I.Call → Prog (Traced I σ) I.Failure Unit
  | [] => pure ()
  | call :: calls => do
    let _ ← perform os call
    performAll calls

variable {os} {P : Traced I σ → Prop} {E : I.Failure → Traced I σ → Prop}

theorem perform_apply (call : I.Call) (s : Traced I σ) :
    perform os call s = (os s.log call, s.called ⟨call, os s.log call⟩) := rfl

theorem ensures_perform {call : I.Call} {Q : I.Reply call → Traced I σ → Prop}
    (hok : ∀ s reply, P s → os s.log call = .ok reply → Q reply (s.called ⟨call, .ok reply⟩))
    (herror : ∀ s failure, P s → os s.log call = .error failure →
      E failure (s.called ⟨call, .error failure⟩)) :
    Ensures P (perform os call) Q E := by
  intro s hs
  rw [perform_apply]
  cases h : os s.log call with
  | ok reply => exact hok s reply hs h
  | error failure => exact herror s failure hs h

theorem ensures_performAll {R : List I.Call → Traced I σ → Prop} (calls done : List I.Call)
    (hok : ∀ done, ∀ call ∈ calls, ∀ s reply, R done s →
      R (done ++ [call]) (s.called ⟨call, .ok reply⟩))
    (herror : ∀ done, ∀ call ∈ calls, ∀ s failure, R done s →
      E failure (s.called ⟨call, .error failure⟩)) :
    Ensures (R done) (performAll os calls) (fun _ => R (done ++ calls)) E := by
  induction calls generalizing done with
  | nil =>
    rw [List.append_nil]
    exact ensures_pure fun _ h => h
  | cons call calls ih =>
    rw [performAll, List.append_cons]
    refine ensures_bind (ensures_perform (Q := fun _ => R (done ++ [call])) ?_ ?_) fun _ => ?_
    · exact fun s reply hs _ => hok done call List.mem_cons_self s reply hs
    · exact fun s failure hs _ => herror done call List.mem_cons_self s failure hs
    · apply ih (done ++ [call])
      · exact fun done c hc => hok done c (List.mem_cons_of_mem _ hc)
      · exact fun done c hc => herror done c (List.mem_cons_of_mem _ hc)

end Programs

/-! ## Guards -/

def Guarded (G : List (Event I) → I.Call → Prop) (log : List (Event I)) : Prop :=
  ∀ before event after, log = before ++ event :: after → G before event.call

section Guards
variable {G : List (Event I) → I.Call → Prop}

theorem guarded_nil : Guarded G [] := by
  intro before event after h
  simp at h

theorem guarded_concat {log : List (Event I)} {event : Event I} :
    Guarded G (log ++ [event]) ↔ Guarded G log ∧ G log event.call := by
  constructor
  · intro h
    constructor
    · intro before e after heq
      apply h before e (after ++ [event])
      rw [heq, List.append_assoc, List.cons_append]
    · exact h log event [] rfl
  · rintro ⟨hlog, hevent⟩ before e after heq
    rcases List.eq_nil_or_concat after with rfl | ⟨rest, last, rfl⟩
    · obtain ⟨rfl, hlast⟩ := List.append_inj' heq rfl
      cases hlast
      exact hevent
    · rw [List.concat_eq_append, ← List.cons_append, ← List.append_assoc] at heq
      exact hlog before e rest (List.append_inj' heq rfl).1

end Guards

/-! ## The calls that were answered -/

def answered (log : List (Event I)) : List I.Call :=
  (log.filter fun event => event.reply.isOk).map Event.call

@[simp] theorem answered_concat_ok (log : List (Event I)) (call : I.Call) (reply : I.Reply call) :
    answered (log ++ [⟨call, .ok reply⟩]) = answered log ++ [call] := by
  simp [answered, Except.isOk, Except.toBool]

@[simp] theorem answered_concat_error (log : List (Event I)) (call : I.Call)
    (failure : I.Failure) : answered (log ++ [⟨call, .error failure⟩]) = answered log := by
  simp [answered, Except.isOk, Except.toBool]

theorem answered_extends (log : List (Event I)) (event : Event I) :
    answered log <+: answered (log ++ [event]) := by
  obtain ⟨call, reply⟩ := event
  cases reply with
  | ok reply =>
    rw [answered_concat_ok]
    exact List.prefix_append _ _
  | error failure =>
    rw [answered_concat_error]

theorem exists_event_of_answered {log : List (Event I)} {call : I.Call} (h : call ∈ answered log) :
    ∃ event ∈ log, event.call = call := by
  obtain ⟨event, hevent, rfl⟩ := List.mem_map.mp h
  exact ⟨event, (List.mem_filter.mp hevent).1, rfl⟩

/-! ## Calls on one object -/

section Objects
variable {κ : Type} [DecidableEq κ] (object : I.Call → Option κ) (k : κ)

def answeredOn (log : List (Event I)) : List I.Call :=
  (answered log).filter fun call => object call = some k

/-- The answered calls on the object begin with the given ones, and none of the calls in
`closing` has been made. -/
def Prepared (closing : I.Call) (calls : List I.Call) (log : List (Event I)) : Prop :=
  calls <+: answeredOn object k log ∧ ∀ event ∈ log, event.call ≠ closing

variable {object k} {closing : I.Call} {calls : List I.Call} {log : List (Event I)}

theorem answeredOn_concat_ok {call : I.Call} (reply : I.Reply call) (h : object call = some k) :
    answeredOn object k (log ++ [⟨call, .ok reply⟩]) = answeredOn object k log ++ [call] := by
  rw [answeredOn, answered_concat_ok, List.filter_append, ← answeredOn]
  simp [h]

theorem answeredOn_extends (event : Event I) :
    answeredOn object k log <+: answeredOn object k (log ++ [event]) :=
  (answered_extends log event).filter _

theorem Prepared.concat (h : Prepared object k closing calls log) {event : Event I}
    (hne : event.call ≠ closing) : Prepared object k closing calls (log ++ [event]) := by
  refine ⟨h.1.trans (answeredOn_extends event), ?_⟩
  intro e he
  rcases List.mem_append.mp he with he | he
  · exact h.2 e he
  · obtain rfl := List.mem_singleton.mp he
    exact hne

theorem Prepared.of_prefix (h : Prepared object k closing calls log) {fewer : List I.Call}
    (hfewer : fewer <+: calls) : Prepared object k closing fewer log :=
  ⟨hfewer.trans h.1, h.2⟩

theorem Prepared.mem (h : Prepared object k closing calls log) {call : I.Call}
    (hcall : call ∈ calls) : call ∈ answered log :=
  List.mem_of_mem_filter (h.1.subset hcall)

end Objects

end InVehicle.SystemCalls
