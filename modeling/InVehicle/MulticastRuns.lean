import InVehicle.Histories
import InVehicle.Multicast

/-!
# Runs of the multicast communicator

In every history of calls, and whatever the system answers, a socket is used only after
it has been through its whole preparation and before it is closed.
-/

set_option autoImplicit false

namespace InVehicle.MulticastRuns
open InVehicle.Effect InVehicle.Histories InVehicle.Multicast InVehicle.SystemCalls
open InVehicle.BuildIp (IpAddress)
open InVehicle.RawSockets (IpVersion)

section Guard
variable (hasReusePort : Bool) (c : MulticastCommunicator)

def receiveCalls (index : Option ℕ) (k : ℕ) : List SystemCall :=
  .socket k (version c.sourceIp) :: receiveOptions hasReusePort c index k

def sendCalls (index : Option ℕ) (k : ℕ) : List SystemCall :=
  .socket k (version c.sourceIp) :: sendOptions c index k

def Ready (calls : List SystemCall) (k : ℕ) (log : List (Event sockets)) : Prop :=
  Prepared SystemCall.object k (SystemCall.close k) calls log

def Live (k : ℕ) (log : List (Event sockets)) : Prop :=
  Ready [.socket k (version c.sourceIp)] k log

/-- On version 6 the system gave the index for the name of the interface. -/
def IndexKnown (index : Option ℕ) (log : List (Event sockets)) : Prop :=
  version c.sourceIp = .ipv6 →
    ∃ n, index = some n ∧ ⟨SystemCall.ifNametoindex c.interfaceName, .ok n⟩ ∈ log

def groupOption (index : Option ℕ) : SocketOption :=
  match version c.sourceIp with
  | .ipv4 => .addMembership c.destinationIp c.sourceIp
  | .ipv6 => .joinGroup c.destinationIp index

def interfaceOption (index : Option ℕ) : SocketOption :=
  match version c.sourceIp with
  | .ipv4 => .multicastIf4 c.sourceIp
  | .ipv6 => .multicastIf6 index

def hopOption : SocketOption :=
  match version c.sourceIp with
  | .ipv4 => .multicastTtl 1
  | .ipv6 => .multicastHops 1

/-- A socket that may receive: these calls on it were answered, as the first ones in the
order of the setup, and it has not been closed. -/
structure MayReceive (index : Option ℕ) (k : ℕ) (log : List (Event sockets)) : Prop where
  ready : Ready (receiveCalls hasReusePort c index k) k log
  bound : .bind k c.destinationIp c.dport ∈ answered log
  joined : .setsockopt k (groupOption c index) ∈ answered log
  nonblocking : .setNonblocking k ∈ answered log
  notClosed : ∀ event ∈ log, event.call ≠ .close k

structure MaySend (index : Option ℕ) (k : ℕ) (log : List (Event sockets)) : Prop where
  ready : Ready (sendCalls c index k) k log
  bound : .bind k c.sourceIp c.sport ∈ answered log
  interface : .setsockopt k (interfaceOption c index) ∈ answered log
  hopLimit : .setsockopt k (hopOption c) ∈ answered log
  nonblocking : .setNonblocking k ∈ answered log
  notClosed : ∀ event ∈ log, event.call ≠ .close k

/-- A socket is used only once it is ready, and not any more after its close. -/
def Allowed (log : List (Event sockets)) : SystemCall → Prop
  | .ifNametoindex name => name = c.interfaceName
  | .socket k family => family = version c.sourceIp ∧ ∀ event ∈ log, event.call.object ≠ some k
  | .setsockopt k _ => Live c k log
  | .bind k _ _ => Live c k log
  | .setNonblocking k => Live c k log
  | .close k => Live c k log
  | .sendto k _ target => ∃ index, IndexKnown c index log ∧ MaySend c index k log ∧
      ∃ address, target = targetAt c address index
  | .select k _ => ∃ index, IndexKnown c index log ∧ MayReceive hasReusePort c index k log
  | .recv k _ => ∃ index, IndexKnown c index log ∧ MayReceive hasReusePort c index k log
  | .recvfrom k _ => ∃ index, IndexKnown c index log ∧ MayReceive hasReusePort c index k log

/-- The log of a run: every call was allowed, and no name is used ahead of its time. -/
structure Logged (log : List (Event sockets)) : Prop where
  guarded : Guarded (Allowed hasReusePort c) log
  named : ∀ event ∈ log, ∀ k, event.call.object = some k → k < log.length

structure Opened (w : World) : Prop where
  logged : Logged hasReusePort c w.log
  flag : w.state.openFlag = true
  known : IndexKnown c w.state.interfaceIndex w.log
  pair : ∃ i o, w.state.inSocket = some i ∧ w.state.outSocket = some o ∧ i ≠ o ∧
    Ready (receiveCalls hasReusePort c w.state.interfaceIndex i) i w.log ∧
    Ready (sendCalls c w.state.interfaceIndex o) o w.log

structure Closed (w : World) : Prop where
  logged : Logged hasReusePort c w.log
  flag : w.state.openFlag = false
  inSocket : w.state.inSocket = none
  outSocket : w.state.outSocket = none

def Inv (w : World) : Prop := Opened hasReusePort c w ∨ Closed hasReusePort c w

/-- What also holds within `open`: the sockets at hand can be closed. -/
structure Partial (w : World) : Prop where
  logged : Logged hasReusePort c w.log
  live : ∀ k ∈ w.state.held, Live c k w.log
  nodup : w.state.held.Nodup

end Guard

variable {os : System sockets} {hasReusePort : Bool} {c : MulticastCommunicator}
  {log : List (Event sockets)} {k : ℕ}

/-! ## One more call in the log -/

theorem logged_start : Logged hasReusePort c [] :=
  ⟨guarded_nil, fun _ h => (List.not_mem_nil h).elim⟩

theorem Logged.concat (h : Logged hasReusePort c log) {event : Event sockets}
    (hallowed : Allowed hasReusePort c log event.call)
    (hnamed : ∀ k, event.call.object = some k → k ≤ log.length) :
    Logged hasReusePort c (log ++ [event]) := by
  refine ⟨guarded_concat.mpr ⟨h.guarded, hallowed⟩, ?_⟩
  intro e he k hk
  rw [List.length_append, List.length_singleton]
  rcases List.mem_append.mp he with he | he
  · have := h.named e he k hk
    omega
  · obtain rfl := List.mem_singleton.mp he
    have := hnamed k hk
    omega

theorem Logged.lt_of_live (h : Logged hasReusePort c log) (hlive : Live c k log) :
    k < log.length := by
  obtain ⟨event, hevent, hcall⟩ := exists_event_of_answered (hlive.mem List.mem_cons_self)
  apply h.named event hevent k
  rw [hcall]
  rfl

theorem IndexKnown.concat {index : Option ℕ} (h : IndexKnown c index log)
    (event : Event sockets) : IndexKnown c index (log ++ [event]) := by
  intro hversion
  obtain ⟨n, hindex, hmem⟩ := h hversion
  exact ⟨n, hindex, List.mem_append_left _ hmem⟩

theorem mem_receiveCalls (hasReusePort : Bool) (index : Option ℕ) :
    .bind k c.destinationIp c.dport ∈ receiveCalls hasReusePort c index k ∧
      .setsockopt k (groupOption c index) ∈ receiveCalls hasReusePort c index k ∧
      .setNonblocking k ∈ receiveCalls hasReusePort c index k := by
  refine ⟨by simp [receiveCalls, receiveOptions], ?_, by simp [receiveCalls, receiveOptions]⟩
  cases hversion : version c.sourceIp <;>
    simp [receiveCalls, receiveOptions, groupOption, hversion]

theorem mem_sendCalls (index : Option ℕ) :
    .bind k c.sourceIp c.sport ∈ sendCalls c index k ∧
      .setsockopt k (interfaceOption c index) ∈ sendCalls c index k ∧
      .setsockopt k (hopOption c) ∈ sendCalls c index k ∧
      .setNonblocking k ∈ sendCalls c index k := by
  refine ⟨by simp [sendCalls, sendOptions], ?_, ?_, by simp [sendCalls, sendOptions]⟩
  · cases hversion : version c.sourceIp <;>
      simp [sendCalls, sendOptions, interfaceOption, hversion]
  · cases hversion : version c.sourceIp <;> simp [sendCalls, sendOptions, hopOption, hversion]

theorem Ready.mayReceive {index : Option ℕ}
    (h : Ready (receiveCalls hasReusePort c index k) k log) :
    MayReceive hasReusePort c index k log := by
  obtain ⟨hbind, hgroup, hnonblocking⟩ := mem_receiveCalls (c := c) hasReusePort index
  exact ⟨h, h.mem hbind, h.mem hgroup, h.mem hnonblocking, h.2⟩

theorem Ready.maySend {index : Option ℕ} (h : Ready (sendCalls c index k) k log) :
    MaySend c index k log := by
  obtain ⟨hbind, hinterface, hhops, hnonblocking⟩ := mem_sendCalls index
  exact ⟨h, h.mem hbind, h.mem hinterface, h.mem hhops, h.mem hnonblocking, h.2⟩

theorem Ready.live {calls : List SystemCall}
    (h : Ready (.socket k (version c.sourceIp) :: calls) k log) : Live c k log :=
  Prepared.of_prefix h (List.cons_prefix_cons.mpr ⟨rfl, List.nil_prefix⟩)

theorem Logged.concat_live (h : Logged hasReusePort c log) (hlive : Live c k log)
    {event : Event sockets} (hallowed : Allowed hasReusePort c log event.call)
    (hobject : event.call.object = some k) : Logged hasReusePort c (log ++ [event]) := by
  apply h.concat hallowed
  intro j hj
  obtain rfl : k = j := Option.some.inj (hobject.symm.trans hj)
  exact Nat.le_of_lt (h.lt_of_live hlive)

theorem Closed.weaken {w : World} (h : Closed hasReusePort c w) :
    Partial hasReusePort c w := by
  have hheld : w.state.held = [] := by rw [State.held, h.inSocket, h.outSocket]; rfl
  refine ⟨h.logged, ?_, ?_⟩
  · rw [hheld]
    exact fun _ h => (List.not_mem_nil h).elim
  · rw [hheld]
    exact List.nodup_nil

theorem Opened.weaken {w : World} (h : Opened hasReusePort c w) :
    Partial hasReusePort c w := by
  obtain ⟨i, o, hi, ho, hne, hin, hout⟩ := h.pair
  have hheld : w.state.held = [i, o] := by rw [State.held, hi, ho]; rfl
  refine ⟨h.logged, ?_, ?_⟩
  · rw [hheld]
    exact List.forall_mem_cons.mpr ⟨hin.live, List.forall_mem_singleton.mpr hout.live⟩
  · rw [hheld]
    simpa using hne

theorem Inv.weaken {w : World} (h : Inv hasReusePort c w) : Partial hasReusePort c w :=
  h.elim Opened.weaken Closed.weaken

/-! ## Cleaning up -/

theorem closeQuietly_eq (os : System sockets) (held : Option ℕ) (w : World) :
    ∃ closes : List (Event sockets), closes.map Event.call = held.toList.map SystemCall.close ∧
      closeQuietly os held w = (.ok (), ⟨w.state, w.log ++ closes⟩) := by
  cases held with
  | none => exact ⟨[], rfl, by rw [List.append_nil]; rfl⟩
  | some k =>
    refine ⟨[⟨.close k, os w.log (.close k)⟩], rfl, ?_⟩
    rw [closeQuietly]
    cases hreply : os w.log (.close k) with
    | ok reply =>
      have hperform : perform os (.close k) w = (.ok reply, w.called ⟨.close k, .ok reply⟩) := by
        rw [perform_apply, hreply]
      exact attempt_ok hperform
    | error failure =>
      have hperform : perform os (.close k) w =
          (.error failure, w.called ⟨.close k, .error failure⟩) := by
        rw [perform_apply, hreply]
      exact attempt_error hperform

theorem cleanupSockets_eq (os : System sockets) (w : World) :
    ∃ closes : List (Event sockets),
      closes.map Event.call = w.state.held.map SystemCall.close ∧
      cleanupSockets os w =
        (.ok (), ⟨⟨none, none, w.state.interfaceIndex, false⟩, w.log ++ closes⟩) := by
  obtain ⟨first, hfirst, hin⟩ := closeQuietly_eq os w.state.inSocket w
  obtain ⟨second, hsecond, hout⟩ := closeQuietly_eq os w.state.outSocket
    ⟨{ w.state with inSocket := none }, w.log ++ first⟩
  refine ⟨first ++ second, ?_, ?_⟩
  · rw [List.map_append, hfirst, hsecond, State.held, List.map_append]
  · rw [cleanupSockets, bind_ok (get_apply w), bind_ok hin, bind_ok (modify_apply _ _)]
    refine (bind_ok hout).trans ?_
    rw [modify_apply, ← List.append_assoc]
    rfl

theorem logged_closes {ks : List ℕ} {closes : List (Event sockets)}
    (h : Logged hasReusePort c log) (hlive : ∀ k ∈ ks, Live c k log) (hnodup : ks.Nodup)
    (hcloses : closes.map Event.call = ks.map SystemCall.close) :
    Logged hasReusePort c (log ++ closes) := by
  induction ks generalizing log closes with
  | nil =>
    rw [List.map_eq_nil_iff.mp hcloses, List.append_nil]
    exact h
  | cons k ks ih =>
    obtain ⟨event, rest, rfl, hcall, hrest⟩ := List.map_eq_cons_iff.mp hcloses
    rw [List.append_cons]
    rw [List.nodup_cons] at hnodup
    have hk := hlive k List.mem_cons_self
    have hallowed : Allowed hasReusePort c log event.call := by
      rw [hcall]
      exact hk
    refine ih (h.concat_live hk hallowed (by rw [hcall]; rfl)) ?_ hnodup.2 hrest
    intro j hj
    apply Prepared.concat (hlive j (List.mem_cons_of_mem _ hj))
    rw [hcall]
    rintro heq
    cases heq
    exact hnodup.1 hj

theorem cleanupSockets_ensures :
    Ensures (Partial hasReusePort c) (cleanupSockets os) (fun _ => Closed hasReusePort c)
      (fun _ _ => False) := by
  intro w hw
  obtain ⟨closes, hcloses, heq⟩ := cleanupSockets_eq os w
  rw [heq]
  exact ⟨logged_closes hw.logged hw.live hw.nodup hcloses, rfl, rfl, rfl⟩

/-! ## Opening -/

inductive IsOption (k : ℕ) : SystemCall → Prop
  | setsockopt (option : SocketOption) : IsOption k (.setsockopt k option)
  | bind (address : IpAddress) (port : ℤ) : IsOption k (.bind k address port)
  | setNonblocking : IsOption k (.setNonblocking k)

theorem isOption_receive (index : Option ℕ) :
    ∀ call ∈ receiveOptions hasReusePort c index k, IsOption k call := by
  intro call hcall
  simp only [receiveOptions, List.mem_append, List.mem_cons, List.not_mem_nil, or_false] at hcall
  rcases hcall with (rfl | hcall) | rfl | rfl | rfl
  · exact .setsockopt _
  · split at hcall
    · rw [List.mem_singleton.mp hcall]
      exact .setsockopt _
    · cases hcall
  · exact .bind _ _
  · exact .setsockopt _
  · exact .setNonblocking

theorem isOption_send (index : Option ℕ) :
    ∀ call ∈ sendOptions c index k, IsOption k call := by
  intro call hcall
  simp only [sendOptions, List.mem_append, List.mem_cons, List.not_mem_nil, or_false] at hcall
  rcases hcall with ((rfl | rfl) | hcall) | rfl
  · exact .setsockopt _
  · exact .bind _ _
  · split at hcall
    · rcases List.mem_pair.mp hcall with rfl | rfl
      · exact .setsockopt _
      · exact .setsockopt _
    · rcases List.mem_pair.mp hcall with rfl | rfl
      · exact .setsockopt _
      · exact .setsockopt _
  · exact .setNonblocking

theorem IsOption.object {call : SystemCall} (h : IsOption k call) : call.object = some k := by
  cases h <;> rfl

theorem IsOption.ne_close {call : SystemCall} (h : IsOption k call) (j : ℕ) :
    call ≠ .close j := by
  rintro rfl
  cases h

theorem IsOption.allowed {call : SystemCall} (h : IsOption k call) (hlive : Live c k log) :
    Allowed hasReusePort c log call := by
  cases h <;> exact hlive

def Stable (M : List (Event sockets) → Prop) : Prop :=
  ∀ log (event : Event sockets), (∀ j, event.call ≠ .close j) → M log → M (log ++ [event])

theorem stable_indexKnown (index : Option ℕ) : Stable (IndexKnown c index) :=
  fun _ event _ h => h.concat event

theorem stable_ready (calls : List SystemCall) (k : ℕ) : Stable (Ready calls k) :=
  fun _ _ hne h => Prepared.concat h (hne k)

theorem Stable.and {M N : List (Event sockets) → Prop} (hM : Stable M) (hN : Stable N) :
    Stable fun log => M log ∧ N log :=
  fun log event hne h => ⟨hM log event hne h.1, hN log event hne h.2⟩

def Stage (calls : List SystemCall) (k : ℕ) (log : List (Event sockets)) : Prop :=
  answeredOn SystemCall.object k log = calls ∧ ∀ event ∈ log, event.call ≠ SystemCall.close k

theorem Stage.ready {calls : List SystemCall} (h : Stage calls k log) : Ready calls k log :=
  ⟨h.1 ▸ List.prefix_rfl, h.2⟩

section Setup
variable (state : State) {M : List (Event sockets) → Prop} (hM : Stable M)

def Frame (hasReusePort : Bool) (c : MulticastCommunicator) (state : State)
    (M : List (Event sockets) → Prop) (w : World) : Prop :=
  w.state = state ∧ Logged hasReusePort c w.log ∧ M w.log

variable (os hasReusePort c) in
include hM in
theorem performAll_options (options done : List SystemCall)
    (hoptions : ∀ call ∈ options, IsOption k call) :
    Ensures
      (fun w => Frame hasReusePort c state M w ∧
        Stage (.socket k (version c.sourceIp) :: done) k w.log)
      (performAll os options)
      (fun _ w => Frame hasReusePort c state M w ∧
        Stage (.socket k (version c.sourceIp) :: (done ++ options)) k w.log)
      (fun _ w => Frame hasReusePort c state M w ∧ Live c k w.log) := by
  have hframe : ∀ event : Event sockets, event.call ∈ options → ∀ w : World, ∀ calls,
      Frame hasReusePort c state M w → Stage (.socket k (version c.sourceIp) :: calls) k w.log →
      Frame hasReusePort c state M (w.called event) := by
    intro event hcall w calls hw hstage
    have hoption := hoptions event.call hcall
    have hlive : Live c k w.log := hstage.ready.live
    refine ⟨hw.1, hw.2.1.concat_live hlive (hoption.allowed hlive) hoption.object, ?_⟩
    exact hM _ _ hoption.ne_close hw.2.2
  refine ensures_performAll (R := fun calls w => Frame hasReusePort c state M w ∧
    Stage (.socket k (version c.sourceIp) :: calls) k w.log) options done ?_ ?_
  · rintro calls call hcall w reply ⟨hw, hstage⟩
    refine ⟨hframe _ hcall w calls hw hstage, ?_, ?_⟩
    · rw [Traced.called_log, answeredOn_concat_ok reply (hoptions call hcall).object, hstage.1,
        List.cons_append]
    · exact (Prepared.concat hstage.ready ((hoptions call hcall).ne_close k)).2
  · rintro calls call hcall w failure ⟨hw, hstage⟩
    refine ⟨hframe _ hcall w calls hw hstage, ?_⟩
    have hne : (⟨call, .error failure⟩ : Event sockets).call ≠ .close k :=
      (hoptions call hcall).ne_close k
    exact Ready.live (Prepared.concat hstage.ready hne)

theorem createSocket_ensures {P : World → Prop} {E : SocketError → World → Prop}
    (herror : ∀ w failure, P w →
      os w.log (.socket w.log.length (version c.sourceIp)) = .error failure →
      E failure (w.called ⟨.socket w.log.length (version c.sourceIp), .error failure⟩)) :
    Ensures P (createSocket os c)
      (fun k w => ∃ u, P u ∧ k = u.log.length ∧
        w = u.called ⟨.socket k (version c.sourceIp), .ok ()⟩) E := by
  refine ensures_bind (Q := fun u w => P w ∧ u = w) (fun w hw => ⟨hw, rfl⟩) fun u => ?_
  refine ensures_bind (ensures_perform (Q := fun _ w => ∃ v, P v ∧ u = v ∧
    w = v.called ⟨.socket v.log.length (version c.sourceIp), .ok ()⟩) ?_ ?_) fun _ => ?_
  · rintro w reply ⟨hw, rfl⟩ -
    exact ⟨u, hw, rfl, rfl⟩
  · rintro w failure ⟨hw, rfl⟩ hreply
    exact herror u failure hw hreply
  · apply ensures_pure
    rintro w ⟨v, hv, rfl, rfl⟩
    exact ⟨u, hv, rfl, rfl⟩

theorem answeredOn_new (h : Logged hasReusePort c log) :
    answeredOn SystemCall.object log.length log = [] := by
  rw [answeredOn, List.filter_eq_nil_iff]
  intro call hcall hobject
  obtain ⟨event, hevent, rfl⟩ := exists_event_of_answered hcall
  exact Nat.lt_irrefl _ (h.named event hevent _ (by simpa using hobject))

theorem Logged.socket (h : Logged hasReusePort c log)
    (reply : Except SocketError Unit) :
    Logged hasReusePort c
      (log ++ [⟨.socket log.length (version c.sourceIp), reply⟩]) := by
  apply h.concat
  · refine ⟨rfl, ?_⟩
    intro event hevent hobject
    exact Nat.lt_irrefl _ (h.named event hevent _ hobject)
  · intro k hk
    exact (Option.some.inj hk).ge

theorem stage_socket (h : Logged hasReusePort c log) :
    Stage [.socket log.length (version c.sourceIp)] log.length
      (log ++ [⟨.socket log.length (version c.sourceIp), .ok ()⟩]) := by
  have hnew : answeredOn SystemCall.object log.length
      (log ++ [⟨.socket log.length (version c.sourceIp), .ok ()⟩]) =
      answeredOn SystemCall.object log.length log ++ [.socket log.length (version c.sourceIp)] :=
    answeredOn_concat_ok _ rfl
  constructor
  · rw [hnew, answeredOn_new h, List.nil_append]
  · intro event hevent hclose
    rcases List.mem_append.mp hevent with hevent | hevent
    · exact Nat.lt_irrefl _ (h.named event hevent _ (by rw [hclose]; rfl))
    · rw [List.mem_singleton.mp hevent] at hclose
      cases hclose

section SetupSocket
variable (os hasReusePort c) (put : ℕ → State → State)
  (options : Option ℕ → ℕ → List SystemCall)

include hM in
theorem setupSocket_ensures (hindex : ∀ k s, (put k s).interfaceIndex = s.interfaceIndex)
    (hoptions : ∀ index k, ∀ call ∈ options index k, IsOption k call) (older : List ℕ)
    (holder : ∀ log, M log → ∀ j ∈ older, Live c j log) :
    Ensures (Frame hasReusePort c state M) (setupSocket os c put options)
      (fun _ w => ∃ k, (∀ j ∈ older, j < k) ∧ Frame hasReusePort c (put k state) M w ∧
        Ready (.socket k (version c.sourceIp) :: options state.interfaceIndex k) k w.log)
      (fun _ w => Frame hasReusePort c state M w ∨
        ∃ k, (∀ j ∈ older, j < k) ∧ Frame hasReusePort c (put k state) M w ∧
          Live c k w.log) := by
  rw [setupSocket]
  refine ensures_bind (createSocket_ensures fun w failure hw _ => .inl ?_) fun k => ?_
  · refine ⟨hw.1, hw.2.1.socket _, hM _ _ (fun j hj => ?_) hw.2.2⟩
    cases hj
  refine ensures_bind (Q := fun _ w => (∀ j ∈ older, j < k) ∧
    Frame hasReusePort c (put k state) M w ∧
    Stage [.socket k (version c.sourceIp)] k w.log) (ensures_modify ?_) fun _ => ?_
  · rintro w ⟨u, ⟨rfl, hlogged, hMu⟩, rfl, rfl⟩
    refine ⟨fun j hj => hlogged.lt_of_live (holder _ hMu j hj), ⟨rfl, hlogged.socket _, ?_⟩,
      stage_socket hlogged⟩
    exact hM _ _ (fun j hj => by cases hj) hMu
  refine ensures_bind (Q := fun s w => s.state = put k state ∧ (∀ j ∈ older, j < k) ∧
    Frame hasReusePort c (put k state) M w ∧
    Stage [.socket k (version c.sourceIp)] k w.log) ?_ fun s => ?_
  · intro w hw
    exact ⟨hw.2.1.1, hw⟩
  intro w hw
  obtain ⟨hs, hnewer, hframe, hstage⟩ := hw
  rw [hs, hindex]
  have hall := performAll_options os hasReusePort c (put k state) hM
    (options state.interfaceIndex k) [] (hoptions _ k)
  refine ensures_weaken hall (A := fun u => u = w) ?_ ?_ ?_ w rfl
  · rintro u rfl
    exact ⟨hframe, hstage⟩
  · rintro _ u ⟨hu, hlast⟩
    exact ⟨k, hnewer, hu, hlast.ready⟩
  · rintro _ u ⟨hu, hlive⟩
    exact .inr ⟨k, hnewer, hu, hlive⟩

end SetupSocket

end Setup

theorem stable_live (ks : List ℕ) : Stable fun log => ∀ k ∈ ks, Live c k log :=
  fun log event hne h k hk => stable_ready _ k log event hne (h k hk)

theorem lookUpInterface_ensures (state : State) :
    Ensures (Frame hasReusePort c state fun log => ∀ k ∈ state.held, Live c k log)
      (lookUpInterface os c)
      (fun _ w => ∃ index, Frame hasReusePort c { state with interfaceIndex := index }
        (fun log => IndexKnown c index log ∧ ∀ k ∈ state.held, Live c k log) w)
      (fun _ => Frame hasReusePort c state fun log => ∀ k ∈ state.held, Live c k log) := by
  rw [lookUpInterface]
  refine ensures_ite (fun hversion => ?_) (fun hversion => ?_)
  · have hframe : ∀ reply : Except SocketError ℕ, ∀ w : World,
        Frame hasReusePort c state (fun log => ∀ k ∈ state.held, Live c k log) w →
        Frame hasReusePort c state (fun log => ∀ k ∈ state.held, Live c k log)
          (w.called ⟨.ifNametoindex c.interfaceName, reply⟩) := by
      rintro reply w ⟨hstate, hlogged, hlive⟩
      refine ⟨hstate, hlogged.concat rfl fun k hk => ?_,
        stable_live state.held _ _ (fun j hj => ?_) hlive⟩
      · cases hk
      · cases hj
    refine ensures_bind (Q := fun n w =>
      Frame hasReusePort c state (fun log => ∀ k ∈ state.held, Live c k log) w ∧
        ⟨.ifNametoindex c.interfaceName, .ok n⟩ ∈ w.log)
      (ensures_perform (fun w n hw _ => ⟨hframe _ w hw, ?_⟩) (fun w e hw _ => hframe _ w hw))
      fun n => ensures_modify ?_
    · exact List.mem_append_right _ (List.mem_singleton.mpr rfl)
    · rintro w ⟨⟨rfl, hlogged, hlive⟩, hmem⟩
      exact ⟨some n, rfl, hlogged, fun _ => ⟨n, rfl, hmem⟩, hlive⟩
  · apply ensures_pure
    rintro w ⟨rfl, hlogged, hlive⟩
    exact ⟨w.state.interfaceIndex, rfl, hlogged, fun h => absurd h hversion, hlive⟩

section Setups
variable (os) (state : State)

theorem setupReceiveSocket_ensures (hnodup : state.held.Nodup) :
    Ensures
      (Frame hasReusePort c state fun log =>
        IndexKnown c state.interfaceIndex log ∧ ∀ k ∈ state.held, Live c k log)
      (setupReceiveSocket os hasReusePort c)
      (fun _ w => ∃ i, (∀ k ∈ state.held, k < i) ∧
        Frame hasReusePort c { state with inSocket := some i } (fun log =>
          IndexKnown c state.interfaceIndex log ∧ ∀ k ∈ state.held, Live c k log) w ∧
        Ready (receiveCalls hasReusePort c state.interfaceIndex i) i w.log)
      (fun _ => Partial hasReusePort c) := by
  have hstable : Stable fun log =>
      IndexKnown c state.interfaceIndex log ∧ ∀ k ∈ state.held, Live c k log :=
    (stable_indexKnown _).and (stable_live state.held)
  refine ensures_weaken (setupSocket_ensures os hasReusePort c state hstable
    (fun k s => { s with inSocket := some k }) (receiveOptions hasReusePort c) (fun _ _ => rfl)
    (fun index _ => isOption_receive index) state.held fun _ h => h.2)
    (fun _ h => h) (fun _ _ h => h) ?_
  rintro _ w (⟨rfl, hlogged, -, hlive⟩ | ⟨i, hnewer, ⟨hstate, hlogged, -, hlive⟩, hi⟩)
  · exact ⟨hlogged, hlive, hnodup⟩
  · have hheld : w.state.held = i :: state.outSocket.toList := by rw [hstate]; rfl
    have hout : ∀ k ∈ state.outSocket.toList, k ∈ state.held :=
      fun k => List.mem_append_right _
    refine ⟨hlogged, ?_, ?_⟩
    · rw [hheld]
      exact List.forall_mem_cons.mpr ⟨hi, fun k hk => hlive k (hout k hk)⟩
    · rw [hheld]
      refine List.nodup_cons.mpr ⟨fun h => ?_, hnodup.of_append_right⟩
      exact Nat.lt_irrefl i (hnewer i (hout i h))

theorem setupSendSocket_ensures {i : ℕ} (hin : state.inSocket = some i)
    (hnodup : state.held.Nodup) :
    Ensures
      (Frame hasReusePort c state fun log =>
        (IndexKnown c state.interfaceIndex log ∧
          Ready (receiveCalls hasReusePort c state.interfaceIndex i) i log) ∧
        ∀ k ∈ state.held, Live c k log)
      (setupSendSocket os c)
      (fun _ w => ∃ o, i < o ∧
        Frame hasReusePort c { state with outSocket := some o } (fun log =>
          (IndexKnown c state.interfaceIndex log ∧
            Ready (receiveCalls hasReusePort c state.interfaceIndex i) i log) ∧
          ∀ k ∈ state.held, Live c k log) w ∧
        Ready (sendCalls c state.interfaceIndex o) o w.log)
      (fun _ => Partial hasReusePort c) := by
  have hstable : Stable fun log => (IndexKnown c state.interfaceIndex log ∧
      Ready (receiveCalls hasReusePort c state.interfaceIndex i) i log) ∧
      ∀ k ∈ state.held, Live c k log :=
    ((stable_indexKnown _).and (stable_ready _ i)).and (stable_live state.held)
  refine ensures_weaken (setupSocket_ensures os hasReusePort c state hstable
    (fun k s => { s with outSocket := some k }) (sendOptions c) (fun _ _ => rfl)
    (fun index _ => isOption_send index) [i] ?_) (fun _ h => h) ?_ ?_
  · rintro log ⟨⟨-, hready⟩, -⟩ j hj
    obtain rfl := List.mem_singleton.mp hj
    exact hready.live
  · rintro _ w ⟨o, hnewer, h⟩
    exact ⟨o, hnewer i List.mem_cons_self, h⟩
  · rintro _ w (⟨rfl, hlogged, -, hlive⟩ | ⟨o, hnewer, ⟨hstate, hlogged, ⟨-, hready⟩, -⟩, ho⟩)
    · exact ⟨hlogged, hlive, hnodup⟩
    · have hheld : w.state.held = [i, o] := by
        rw [hstate, State.held, hin]
        rfl
      have hne : i ≠ o := Nat.ne_of_lt (hnewer i List.mem_cons_self)
      refine ⟨hlogged, ?_, ?_⟩
      · rw [hheld]
        exact List.forall_mem_cons.mpr ⟨hready.live, List.forall_mem_singleton.mpr ho⟩
      · rw [hheld]
        simpa using hne

end Setups

theorem setup_ensures :
    Ensures (Partial hasReusePort c) (setup os hasReusePort c)
      (fun r w => r = true ∧ Opened hasReusePort c w) (fun _ => Partial hasReusePort c) := by
  rintro w₀ ⟨hlogged, hlive, hnodup⟩
  generalize hstate : w₀.state = state at hlive hnodup
  refine (?_ : Ensures (Frame hasReusePort c state fun log => ∀ k ∈ state.held, Live c k log)
    _ _ _) w₀ ⟨hstate, hlogged, hlive⟩
  rw [setup]
  refine ensures_bind (ensures_weaken (lookUpInterface_ensures state) (fun _ h => h)
    (fun _ _ h => h) ?_) fun _ => ensures_exists fun index => ?_
  · rintro e w ⟨rfl, hl, hk⟩
    exact ⟨hl, hk, hnodup⟩
  refine ensures_bind (setupReceiveSocket_ensures os { state with interfaceIndex := index }
    hnodup) fun _ => ensures_exists fun i => ?_
  rintro w ⟨hnewer, ⟨hw, hl, hindex, hlive⟩, hready⟩
  have hout : ∀ k ∈ state.outSocket.toList, k ∈ state.held := fun k => List.mem_append_right _
  have hi : i ∉ state.outSocket.toList := fun h => Nat.lt_irrefl i (hnewer i (hout i h))
  refine ensures_bind (setupSendSocket_ensures os
    { state with interfaceIndex := index, inSocket := some i } rfl
    (List.nodup_cons.mpr ⟨hi, hnodup.of_append_right⟩))
    (fun _ => ensures_exists fun o => ?_) w ⟨hw, hl, ⟨hindex, hready⟩, ?_⟩
  · refine ensures_bind (Q := fun _ => Opened hasReusePort c) (ensures_modify ?_)
      fun _ => ensures_pure fun _ h => ⟨rfl, h⟩
    rintro u ⟨hlt, ⟨hu, hlogged, ⟨hindex, hin⟩, -⟩, hout⟩
    refine ⟨hlogged, rfl, ?_, i, o, ?_, ?_, Nat.ne_of_lt hlt, ?_, ?_⟩ <;>
      rw [Traced.update_state, hu]
    · exact hindex
    · exact hin
    · exact hout
  · exact List.forall_mem_cons.mpr ⟨hready.live, fun k hk => hlive k (hout k hk)⟩

theorem openMulticast_ensures :
    Ensures (Inv hasReusePort c) (openMulticast os hasReusePort c)
      (fun r w => r = true ∧ Opened hasReusePort c w)
      (fun e w => e = .runtime ∧ Closed hasReusePort c w) := by
  intro w hw
  rw [openMulticast]
  obtain ⟨r, u, hrun, hr, hu⟩ | ⟨e, u, hrun, hu⟩ :=
    Ensures.ends setup_ensures (m := setup os hasReusePort c) hw.weaken
  · rw [attempt_ok hrun]
    exact ⟨hr, hu⟩
  · rw [attempt_error hrun]
    refine ensures_bind (ensures_weaken (cleanupSockets_ensures (c := c)) (fun _ h => h)
      (fun _ _ h => h) (fun _ _ h => h.elim)) (fun _ => ensures_raise fun v hv => ⟨rfl, hv⟩) u hu

theorem closeMulticast_ensures :
    Ensures (Inv hasReusePort c) (closeMulticast os)
      (fun r w => r = true ∧ Closed hasReusePort c w) (fun _ _ => False) :=
  ensures_bind (ensures_pre cleanupSockets_ensures fun _ h => h.weaken)
    fun _ => ensures_pure fun _ h => ⟨rfl, h⟩

/-! ## Using the sockets -/

theorem Opened.called {w : World} (h : Opened hasReusePort c w) {event : Event sockets}
    (hne : ∀ j, event.call ≠ .close j) (hallowed : Allowed hasReusePort c w.log event.call)
    (hobject : event.call.object = some k) (hlive : Live c k w.log) :
    Opened hasReusePort c (w.called event) := by
  obtain ⟨i, o, hi, ho, hneq, hin, hout⟩ := h.pair
  exact ⟨h.logged.concat_live hlive hallowed hobject, h.flag, h.known.concat event,
    i, o, hi, ho, hneq, Prepared.concat hin (hne i), Prepared.concat hout (hne o)⟩

structure Using (hasReusePort : Bool) (c : MulticastCommunicator) (i o : ℕ) (index : Option ℕ)
    (w : World) : Prop where
  opened : Opened hasReusePort c w
  known : IndexKnown c index w.log
  receiving : Ready (receiveCalls hasReusePort c index i) i w.log
  sending : Ready (sendCalls c index o) o w.log

theorem whenOpen_keeps {α : Type} {body : ℕ → ℕ → Option ℕ → Program α}
    (hbody : ∀ i o index, Ensures (Using hasReusePort c i o index) (body i o index)
      (fun _ => Opened hasReusePort c) (fun _ => Opened hasReusePort c)) :
    Keeps (Inv hasReusePort c) (whenOpen body) := by
  rintro w (hw | hw)
  · obtain ⟨i, o, hi, ho, -, hin, hout⟩ := hw.pair
    have hrun : whenOpen body w = body i o w.state.interfaceIndex w := by
      rw [whenOpen, hw.flag, hi, ho]
    rw [hrun]
    exact ensures_weaken (hbody i o w.state.interfaceIndex) (fun _ h => h) (fun _ _ h => .inl h)
      (fun _ _ h => .inl h) w ⟨hw, hw.known, hin, hout⟩
  · have hrun : whenOpen body w = (.error .runtime, w) := by
      rw [whenOpen, hw.flag]
    rw [hrun]
    exact .inr hw

theorem handling_ensures {α : Type} {P I : World → Prop} {body blocking : Program α}
    (hbody : Ensures P body (fun _ => I) (fun _ => I))
    (hblocking : Ensures I blocking (fun _ => I) (fun _ => I)) :
    Ensures P (handling body blocking) (fun _ => I) (fun _ => I) := by
  intro w hw
  rw [handling]
  obtain ⟨a, u, hrun, hu⟩ | ⟨e, u, hrun, hu⟩ := hbody.ends hw
  · rw [attempt_ok hrun]
    exact hu
  · rw [attempt_error hrun]
    exact ensures_ite (fun _ => hblocking) (fun _ => ensures_raise fun _ h => h) u hu

section Uses
variable {i o : ℕ} {index : Option ℕ}

theorem perform_receiving {call : SystemCall} {P : World → Prop}
    (hP : ∀ w, P w → Using hasReusePort c i o index w) (hobject : call.object = some i)
    (hne : ∀ j, call ≠ .close j)
    (hallowed : ∀ log, IndexKnown c index log →
      Ready (receiveCalls hasReusePort c index i) i log → Allowed hasReusePort c log call) :
    Ensures P (perform os call) (fun _ => Using hasReusePort c i o index)
      (fun _ => Opened hasReusePort c) := by
  have hcalled : ∀ reply, ∀ w, P w → Using hasReusePort c i o index (w.called ⟨call, reply⟩) := by
    intro reply w hw
    obtain ⟨hopened, hindex, hin, hout⟩ := hP w hw
    exact ⟨hopened.called hne (hallowed _ hindex hin) hobject hin.live, hindex.concat _,
      Prepared.concat hin (hne i), Prepared.concat hout (hne o)⟩
  exact ensures_perform (fun w reply hw _ => hcalled _ w hw)
    (fun w failure hw _ => (hcalled _ w hw).opened)

theorem sendTo_keeps (targetIp : IpAddress) (data : Bytes) :
    Keeps (Inv hasReusePort c) (sendTo os c targetIp data) := by
  refine whenOpen_keeps fun i o index => handling_ensures ?_ (ensures_raise fun _ h => h)
  have hcalled : ∀ reply, ∀ w, Using hasReusePort c i o index w →
      Opened hasReusePort c (w.called ⟨.sendto o data (targetAt c targetIp index), reply⟩) := by
    intro reply w hw
    refine hw.opened.called (fun j hj => by cases hj) ?_ rfl hw.sending.live
    exact ⟨index, hw.known, hw.sending.maySend, targetIp, rfl⟩
  exact ensures_perform (fun w reply hw _ => hcalled _ w hw)
    (fun w failure hw _ => hcalled _ w hw)

theorem waitsInVain_ensures (recvTimeout : ℚ) :
    Ensures (Using hasReusePort c i o index) (waitsInVain os i recvTimeout)
      (fun _ => Using hasReusePort c i o index) (fun _ => Opened hasReusePort c) := by
  rw [waitsInVain]
  refine ensures_ite (fun _ => ?_) (fun _ => ensures_pure fun _ h => h)
  refine ensures_bind (perform_receiving (fun _ h => h) rfl (fun j hj => by cases hj) ?_)
    fun _ => ensures_pure fun _ h => h
  exact fun _ hindex hready => ⟨index, hindex, Ready.mayReceive hready⟩

theorem recv_keeps (recvTimeout : ℚ) (size : ℤ) :
    Keeps (Inv hasReusePort c) (recv os recvTimeout size) := by
  refine whenOpen_keeps fun i o index => handling_ensures ?_ (ensures_pure fun _ h => h)
  refine ensures_bind (waitsInVain_ensures recvTimeout) fun _ => ensures_ite (fun _ => ?_)
    fun _ => ?_
  · exact ensures_pure fun _ h => h.opened
  · refine ensures_bind (perform_receiving (fun _ h => h) rfl (fun j hj => by cases hj) ?_)
      fun _ => ensures_pure fun _ h => h.opened
    exact fun _ hindex hready => ⟨index, hindex, Ready.mayReceive hready⟩

theorem receiveFrom_keeps (size : ℤ) (recvTimeout : ℚ) :
    Keeps (Inv hasReusePort c) (receiveFrom os size recvTimeout) := by
  refine whenOpen_keeps fun i o index => handling_ensures ?_ (ensures_raise fun _ h => h)
  refine ensures_bind (waitsInVain_ensures recvTimeout) fun _ => ensures_ite (fun _ => ?_)
    fun _ => ?_
  · exact ensures_raise fun _ h => h.opened
  · refine ensures_weaken (perform_receiving (fun _ h => h) rfl (fun j hj => by cases hj) ?_)
      (fun _ h => h) (fun _ _ h => h.opened) (fun _ _ h => h)
    exact fun _ hindex hready => ⟨index, hindex, Ready.mayReceive hready⟩

end Uses

/-! ## Runs -/

theorem step_inv {w : World} (h : Inv hasReusePort c w) (call : Call) :
    Inv hasReusePort c (step os hasReusePort c w call) := by
  cases call with
  | «open» =>
    exact keeps_iff.mp (ensures_weaken openMulticast_ensures (fun _ h => h) (fun _ _ h => .inl h.2)
      fun _ _ h => .inr h.2) w h
  | close =>
    exact keeps_iff.mp (ensures_weaken closeMulticast_ensures (fun _ h => h)
      (fun _ _ h => .inr h.2) fun _ _ h => h.elim) w h
  | send data => exact keeps_iff.mp (sendTo_keeps c.destinationIp data) w h
  | sendTo targetIp data => exact keeps_iff.mp (sendTo_keeps targetIp data) w h
  | recv recvTimeout size => exact keeps_iff.mp (recv_keeps recvTimeout size) w h
  | receiveFrom size recvTimeout => exact keeps_iff.mp (receiveFrom_keeps size recvTimeout) w h

theorem inv_start : Inv hasReusePort c World.start := .inr ⟨logged_start, rfl, rfl, rfl⟩

theorem run_inv (calls : List Call) {w : World} (h : Inv hasReusePort c w) :
    Inv hasReusePort c (run (step os hasReusePort c) w calls) := by
  induction calls generalizing w with
  | nil => exact h
  | cons call calls ih => exact ih (step_inv h call)

/-- In any history, and whatever the system answers, every call of the system was allowed
by the calls before it. -/
theorem calls_guarded (os : System sockets) (hasReusePort : Bool) (c : MulticastCommunicator)
    (calls : List Call) :
    Guarded (Allowed hasReusePort c) (run (step os hasReusePort c) World.start calls).log :=
  (run_inv calls inv_start).weaken.logged.guarded

end InVehicle.MulticastRuns
