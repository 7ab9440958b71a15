import InVehicle.MulticastRuns

/-!
# The sockets of the multicast communicator

Each socket that the communicator creates is at hand until it is closed, once. Only
`open` on an open communicator can lose one: the new socket takes the place of one that
nobody closes. Explicit calls of `close` are counted; a socket that is dropped is closed
by its finalizer at some time, and that is not in the log.
-/

set_option autoImplicit false

namespace InVehicle.MulticastSockets
open InVehicle.Effect InVehicle.Histories InVehicle.Multicast InVehicle.MulticastRuns
open InVehicle.SystemCalls

def closings (k : ℕ) (log : List (Event sockets)) : ℕ :=
  log.countP fun event => decide (event.call = SystemCall.close k)

/-- A socket at hand has not been closed, any other one has been closed once. -/
def Accounted (w : World) : Prop :=
  ∀ k family, SystemCall.socket k family ∈ answered w.log →
    closings k w.log = if k ∈ w.state.held then 0 else 1

/-- The first two steps of `open`, up to the new socket. -/
def newSocket (os : System sockets) (c : MulticastCommunicator) : Program ℕ := do
  lookUpInterface os c
  createSocket os c

/-- The call is no `open` of an open communicator that gets as far as a new socket. -/
def NotReplacing (os : System sockets) (c : MulticastCommunicator) (w : World) (call : Call) :
    Prop :=
  call = .open → w.state.isOpen = true → ¬ ∃ k, (newSocket os c w).1 = .ok k

/-! ## Closed at most once -/

variable {os : System sockets} {hasReusePort : Bool} {c : MulticastCommunicator}
  {log : List (Event sockets)} {k : ℕ}

theorem closings_eq_zero_iff : closings k log = 0 ↔ ∀ event ∈ log, event.call ≠ .close k := by
  simp [closings, List.countP_eq_zero]

theorem closings_concat (event : Event sockets) :
    closings k (log ++ [event]) =
      closings k log + if event.call = SystemCall.close k then 1 else 0 := by
  rw [closings, List.countP_append, ← closings, List.countP_singleton]
  simp

theorem closings_le_one (h : Guarded (Allowed hasReusePort c) log) : closings k log ≤ 1 := by
  induction log using List.reverseRecOn with
  | nil => exact Nat.zero_le 1
  | append_singleton log event ih =>
    obtain ⟨hlog, hevent⟩ := guarded_concat.mp h
    rw [closings_concat]
    by_cases hclose : event.call = SystemCall.close k
    · rw [hclose] at hevent
      have hnone : closings k log = 0 := closings_eq_zero_iff.mpr hevent.2
      rw [if_pos hclose, hnone]
    · rw [if_neg hclose]
      exact ih hlog

def Covered (w : World) : Prop :=
  ∀ k family, SystemCall.socket k family ∈ answered w.log →
    k ∈ w.state.held ∨ ∃ event ∈ w.log, event.call = SystemCall.close k

theorem accounted_iff {w : World} (h : Partial hasReusePort c w) :
    Accounted w ↔ Covered w := by
  refine forall_congr' fun k => forall_congr' fun family => imp_congr_right fun _ => ?_
  have hle := closings_le_one (k := k) h.logged.guarded
  by_cases hheld : k ∈ w.state.held
  · simp only [hheld, if_true, true_or, iff_true]
    exact closings_eq_zero_iff.mpr (h.live k hheld).2
  · have hzero : closings k w.log = 0 ↔ _ := closings_eq_zero_iff
    simp only [hheld, if_false, false_or]
    constructor
    · intro hone
      by_contra hnone
      push Not at hnone
      rw [hzero.mpr hnone] at hone
      cases hone
    · rintro ⟨event, hevent, hclose⟩
      have hne : closings k w.log ≠ 0 := fun h => hzero.mp h event hevent hclose
      omega

/-! ## Calls that neither create nor close a socket -/

structure Quiet (event : Event sockets) : Prop where
  notClose : ∀ k, event.call ≠ .close k
  notSocket : ∀ k family, event.call = .socket k family → event.reply.isOk = false

def QuietStable (R : World → Prop) : Prop := ∀ w event, Quiet event → R w → R (w.called event)

theorem answered_quiet {event : Event sockets} (h : Quiet event) (family : RawSockets.IpVersion) :
    SystemCall.socket k family ∈ answered (log ++ [event]) ↔
      SystemCall.socket k family ∈ answered log := by
  obtain ⟨call, reply⟩ := event
  cases reply with
  | error failure => rw [answered_concat_error]
  | ok reply =>
    rw [answered_concat_ok, List.mem_append, List.mem_singleton, or_iff_left]
    rintro rfl
    cases h.notSocket k family rfl

theorem covered_quiet : QuietStable Covered := by
  intro w event hquiet h k family hk
  rcases h k family ((answered_quiet hquiet family).mp hk) with hheld | ⟨e, he, hclose⟩
  · exact .inl hheld
  · exact .inr ⟨e, List.mem_append_left _ he, hclose⟩

theorem isOption_quiet {call : SystemCall} (h : IsOption k call)
    (reply : Except SocketError (sockets.Reply call)) : Quiet ⟨call, reply⟩ := by
  refine ⟨h.ne_close, ?_⟩
  rintro j family rfl
  cases h

theorem whenOpen_quiet {R : World → Prop} {α : Type} {body : ℕ → ℕ → Option ℕ → Program α}
    (hbody : ∀ i o index, Keeps R (body i o index)) : Keeps R (whenOpen body) := by
  refine keeps_iff.mpr fun w hw => ?_
  rw [whenOpen]
  split
  · exact keeps_iff.mp (hbody _ _ _) w hw
  · exact hw

section Quiet
variable {R : World → Prop} (hR : QuietStable R)
include hR

theorem perform_quiet (call : SystemCall) (hclose : ∀ k, call ≠ .close k)
    (hsocket : ∀ k family, call ≠ .socket k family) : Keeps R (perform os call) := by
  have hquiet : ∀ reply, Quiet ⟨call, reply⟩ :=
    fun reply => ⟨hclose, fun k family h => absurd h (hsocket k family)⟩
  exact ensures_perform (fun w reply hw _ => hR w _ (hquiet _) hw)
    (fun w failure hw _ => hR w _ (hquiet _) hw)

theorem sendTo_quiet (targetIp : BuildIp.IpAddress) (data : Bytes) :
    Keeps R (sendTo os c targetIp data) := by
  refine whenOpen_quiet fun i o index => handling_ensures ?_ (ensures_raise fun _ h => h)
  exact perform_quiet hR _ (fun k h => by cases h) (fun k family h => by cases h)

theorem waitsInVain_quiet (i : ℕ) (recvTimeout : ℚ) :
    Keeps R (waitsInVain os i recvTimeout) := by
  refine ensures_ite (fun _ => ?_) (fun _ => ensures_pure fun _ h => h)
  refine ensures_bind (perform_quiet hR _ (fun k h => by cases h) fun k family h => by cases h)
    fun _ => ensures_pure fun _ h => h

theorem recv_quiet (recvTimeout : ℚ) (size : ℤ) : Keeps R (recv os recvTimeout size) := by
  refine whenOpen_quiet fun i o index => handling_ensures ?_ (ensures_pure fun _ h => h)
  refine ensures_bind (waitsInVain_quiet hR i recvTimeout) fun _ => ensures_ite (fun _ => ?_)
    fun _ => ?_
  · exact ensures_pure fun _ h => h
  · refine ensures_bind (perform_quiet hR _ (fun k h => by cases h) fun k family h => by cases h)
      fun _ => ensures_pure fun _ h => h

theorem receiveFrom_quiet (size : ℤ) (recvTimeout : ℚ) :
    Keeps R (receiveFrom os size recvTimeout) := by
  refine whenOpen_quiet fun i o index => handling_ensures ?_ (ensures_raise fun _ h => h)
  refine ensures_bind (waitsInVain_quiet hR i recvTimeout) fun _ => ensures_ite (fun _ => ?_)
    fun _ => ?_
  · exact ensures_raise fun _ h => h
  · exact perform_quiet hR _ (fun k h => by cases h) fun k family h => by cases h

theorem lookUpInterface_quiet (hindex : ∀ w index, R w →
    R (w.update fun s => { s with interfaceIndex := index })) :
    Keeps R (lookUpInterface os c) := by
  refine ensures_ite (fun _ => ?_) (fun _ => ensures_pure fun _ h => h)
  refine ensures_bind (perform_quiet hR _ (fun k h => by cases h) fun k family h => by cases h)
    fun n => ensures_modify fun w h => hindex w (some n) h

end Quiet

theorem setupSocket_quiet {put : ℕ → State → State} {options : Option ℕ → ℕ → List SystemCall}
    {R R' : World → Prop} {E : SocketError → World → Prop}
    (hoptions : ∀ index k, ∀ call ∈ options index k, IsOption k call)
    (hfail : ∀ w failure, R w →
      os w.log (.socket w.log.length (version c.sourceIp)) = .error failure →
      E failure (w.called ⟨.socket w.log.length (version c.sourceIp), .error failure⟩))
    (hput : ∀ w, R w →
      R' ((w.called ⟨.socket w.log.length (version c.sourceIp), .ok ()⟩).update
        (put w.log.length)))
    (hquiet : QuietStable R') (hE : ∀ e w, R' w → E e w) :
    Ensures R (setupSocket os c put options) (fun _ => R') E := by
  refine ensures_bind (createSocket_ensures hfail) fun k => ?_
  refine ensures_bind (Q := fun _ => R') (ensures_modify ?_) fun _ => ?_
  · rintro w ⟨u, hu, rfl, rfl⟩
    exact hput u hu
  refine ensures_bind (Q := fun _ => R') (fun _ h => h) fun s => ?_
  refine ensures_performAll (R := fun _ => R') _ [] ?_ ?_
  · exact fun _ call hcall w reply hw => hquiet w _ (isOption_quiet (hoptions _ k call hcall) _) hw
  · exact fun _ call hcall w failure hw =>
      hE failure _ (hquiet w _ (isOption_quiet (hoptions _ k call hcall) _) hw)

/-! ## Nothing is lost -/

theorem answered_append_closes {ks : List ℕ} {closes : List (Event sockets)}
    (hcloses : closes.map Event.call = ks.map SystemCall.close) (family : RawSockets.IpVersion) :
    SystemCall.socket k family ∈ answered (log ++ closes) ↔
      SystemCall.socket k family ∈ answered log := by
  rw [answered, List.filter_append, List.map_append, ← answered, List.mem_append, or_iff_left]
  intro h
  obtain ⟨event, hevent, hcall⟩ := exists_event_of_answered h
  have hmem : event.call ∈ ks.map SystemCall.close := hcloses ▸ List.mem_map_of_mem hevent
  obtain ⟨j, -, hj⟩ := List.mem_map.mp hmem
  cases hj.trans hcall

theorem cleanupSockets_covered : Keeps Covered (cleanupSockets os) := by
  intro w hw
  obtain ⟨closes, hcloses, heq⟩ := cleanupSockets_eq os w
  rw [heq]
  intro k family hk
  rcases hw k family ((answered_append_closes hcloses family).mp hk) with hheld | ⟨e, he, hclose⟩
  · have hmem : SystemCall.close k ∈ closes.map Event.call := by
      rw [hcloses]
      exact List.mem_map_of_mem hheld
    obtain ⟨event, hevent, hcall⟩ := List.mem_map.mp hmem
    exact .inr ⟨event, List.mem_append_right _ hevent, hcall⟩
  · exact .inr ⟨e, List.mem_append_left _ he, hclose⟩

theorem covered_put {w : World} (h : Covered w) {state : State} {family : RawSockets.IpVersion}
    {reply : sockets.Reply (SystemCall.socket k family)}
    (hheld : ∀ j, j ∈ state.held ↔ j ∈ w.state.held ∨ j = k) :
    Covered ((w.called ⟨.socket k family, .ok reply⟩).update fun _ => state) := by
  intro j family' hj
  rw [Traced.update_log, Traced.called_log, answered_concat_ok, List.mem_append,
    List.mem_singleton] at hj
  rcases hj with hj | hj
  · rcases h j family' hj with hold | ⟨e, he, hclose⟩
    · exact .inl ((hheld j).mpr (.inl hold))
    · exact .inr ⟨e, List.mem_append_left _ he, hclose⟩
  · cases hj
    exact .inl ((hheld _).mpr (.inr rfl))

theorem covered_failed {w : World} (h : Covered w) (k : ℕ) (family : RawSockets.IpVersion)
    (failure : SocketError) : Covered (w.called ⟨.socket k family, .error failure⟩) :=
  covered_quiet w _ ⟨fun j hj => (by cases hj), fun _ _ _ => rfl⟩ h

theorem setup_covered :
    Ensures (fun w => Covered w ∧ w.state.inSocket = none ∧ w.state.outSocket = none)
      (setup os hasReusePort c) (fun _ => Covered) (fun _ => Covered) := by
  refine ensures_bind (ensures_weaken (lookUpInterface_quiet ?_ ?_) (fun _ h => h)
    (fun _ _ h => h) fun _ _ h => h.1) fun _ => ?_
  · exact fun w event hquiet h => ⟨covered_quiet w event hquiet h.1, h.2⟩
  · exact fun w index h => h
  refine ensures_bind (Q := fun _ w => Covered w ∧ w.state.outSocket = none)
    (setupSocket_quiet (fun index _ => isOption_receive index) ?_ ?_ ?_ fun _ _ h => h.1)
    fun _ => ?_
  · exact fun w failure h _ => covered_failed h.1 _ _ _
  · rintro w ⟨hw, hin, hout⟩
    refine ⟨covered_put hw fun j => ?_, hout⟩
    simp [State.held, hin, hout]
  · exact fun w event hquiet h => ⟨covered_quiet w event hquiet h.1, h.2⟩
  refine ensures_bind (Q := fun _ => Covered)
    (setupSocket_quiet (fun index _ => isOption_send index) ?_ ?_ covered_quiet fun _ _ h => h)
    fun _ => ?_
  · exact fun w failure h _ => covered_failed h.1 _ _ _
  · rintro w ⟨hw, hout⟩
    refine covered_put hw fun j => ?_
    simp [State.held, hout]
  · exact ensures_bind (ensures_modify fun w h => h) fun _ => ensures_pure fun _ h => h

theorem setup_stopped {w : World} (hw : Covered w) (h : ¬ ∃ k, (newSocket os c w).1 = .ok k) :
    ∃ e u, setup os hasReusePort c w = (.error e, u) ∧ Covered u := by
  rw [newSocket] at h
  have hlook : Keeps Covered (lookUpInterface os c) :=
    lookUpInterface_quiet covered_quiet fun _ _ h => h
  obtain ⟨_, u, hrun, hu⟩ | ⟨e, u, hrun, hu⟩ := hlook.ends hw
  · rw [bind_ok hrun] at h
    have hcreate : Ensures Covered (createSocket os c) (fun _ _ => True) (fun _ => Covered) :=
      ensures_weaken (createSocket_ensures fun w failure hw _ => covered_failed hw _ _ _)
        (fun _ h => h) (fun _ _ _ => trivial) (fun _ _ h => h)
    obtain ⟨k, v, hsocket, -⟩ | ⟨e, v, hsocket, hv⟩ := hcreate.ends hu
    · exact absurd ⟨k, by rw [hsocket]⟩ h
    · refine ⟨e, v, ?_, hv⟩
      rw [setup, bind_ok hrun, setupReceiveSocket, setupSocket]
      exact bind_error (bind_error hsocket)
  · exact ⟨e, u, by rw [setup, bind_error hrun], hu⟩

theorem openMulticast_covered {w : World} (hinv : Inv hasReusePort c w) (hw : Covered w)
    (h : w.state.isOpen = true → ¬ ∃ k, (newSocket os c w).1 = .ok k) :
    Covered (openMulticast os hasReusePort c w).2 := by
  have hcleanup : Keeps Covered
      ((cleanupSockets os).bind fun _ => Prog.raise (α := Bool) SocketError.runtime) :=
    ensures_bind cleanupSockets_covered fun _ => ensures_raise fun _ h => h
  have hsetup : (∃ a u, setup os hasReusePort c w = (.ok a, u) ∧ Covered u) ∨
      ∃ e u, setup os hasReusePort c w = (.error e, u) ∧ Covered u := by
    rcases hinv with hopened | hclosed
    · obtain ⟨i, o, hi, ho, -⟩ := hopened.pair
      have hisOpen : w.state.isOpen = true := by
        rw [State.isOpen, hopened.flag, hi, ho]
        rfl
      exact .inr (setup_stopped hw (h hisOpen))
    · exact setup_covered.ends ⟨hw, hclosed.inSocket, hclosed.outSocket⟩
  rw [openMulticast]
  obtain ⟨a, u, hrun, hu⟩ | ⟨e, u, hrun, hu⟩ := hsetup
  · rw [attempt_ok hrun]
    exact hu
  · rw [attempt_error hrun]
    exact keeps_iff.mp hcleanup u hu

theorem step_covered {w : World} (hinv : Inv hasReusePort c w) (hw : Covered w) {call : Call}
    (h : NotReplacing os c w call) : Covered (step os hasReusePort c w call) := by
  cases call with
  | «open» => exact openMulticast_covered hinv hw (h rfl)
  | close =>
    have hclose : Keeps Covered (closeMulticast os) :=
      ensures_bind cleanupSockets_covered fun _ => ensures_pure fun _ h => h
    exact keeps_iff.mp hclose w hw
  | send data => exact keeps_iff.mp (sendTo_quiet covered_quiet c.destinationIp data) w hw
  | sendTo targetIp data => exact keeps_iff.mp (sendTo_quiet covered_quiet targetIp data) w hw
  | recv recvTimeout size => exact keeps_iff.mp (recv_quiet covered_quiet recvTimeout size) w hw
  | receiveFrom size recvTimeout =>
    exact keeps_iff.mp (receiveFrom_quiet covered_quiet size recvTimeout) w hw

/-! ## What is lost stays lost -/

structure Lost (k : ℕ) (w : World) : Prop where
  created : ∃ family, SystemCall.socket k family ∈ answered w.log
  notClosed : ∀ event ∈ w.log, event.call ≠ .close k
  older : k < w.log.length
  notHeld : k ∉ w.state.held

theorem Lost.not_covered {w : World} (h : Lost k w) : ¬ Covered w := by
  intro hcovered
  obtain ⟨family, hcreated⟩ := h.created
  rcases hcovered k family hcreated with hheld | ⟨event, hevent, hclose⟩
  · exact h.notHeld hheld
  · exact h.notClosed event hevent hclose

theorem Lost.called {w : World} (h : Lost k w) {event : Event sockets}
    (hne : event.call ≠ .close k) : Lost k (w.called event) := by
  refine ⟨?_, ?_, ?_, h.notHeld⟩
  · obtain ⟨family, hcreated⟩ := h.created
    exact ⟨family, (answered_extends w.log event).subset hcreated⟩
  · intro e he
    rcases List.mem_append.mp he with he | he
    · exact h.notClosed e he
    · rw [List.mem_singleton.mp he]
      exact hne
  · rw [Traced.called_log, List.length_append]
    exact Nat.lt_add_right _ h.older

theorem lost_quiet (k : ℕ) : QuietStable (Lost k) :=
  fun _ _ hquiet h => h.called (hquiet.notClose k)

theorem lost_closes {ks : List ℕ} {closes : List (Event sockets)} {state : State}
    (h : Lost k ⟨state, log⟩) (hks : k ∉ ks)
    (hcloses : closes.map Event.call = ks.map SystemCall.close) :
    Lost k ⟨state, log ++ closes⟩ := by
  induction ks generalizing log closes with
  | nil =>
    rw [List.map_eq_nil_iff.mp hcloses, List.append_nil]
    exact h
  | cons j ks ih =>
    obtain ⟨event, rest, rfl, hcall, hrest⟩ := List.map_eq_cons_iff.mp hcloses
    rw [List.mem_cons, not_or] at hks
    rw [List.append_cons]
    refine ih (h.called ?_) hks.2 hrest
    rw [hcall]
    rintro heq
    cases heq
    exact hks.1 rfl

theorem cleanupSockets_lost (k : ℕ) : Keeps (Lost k) (cleanupSockets os) := by
  intro w hw
  obtain ⟨closes, hcloses, heq⟩ := cleanupSockets_eq os w
  rw [heq]
  refine lost_closes ⟨hw.created, hw.notClosed, hw.older, ?_⟩ hw.notHeld hcloses
  exact List.not_mem_nil

theorem lost_put {w : World} (h : Lost k w) {state : State}
    {event : Event sockets} (hne : event.call ≠ .close k)
    (hheld : ∀ j ∈ state.held, j ∈ w.state.held ∨ j = w.log.length) :
    Lost k ((w.called event).update fun _ => state) := by
  obtain ⟨hcreated, hclosed, holder, -⟩ := h.called hne
  refine ⟨hcreated, hclosed, holder, fun hk => ?_⟩
  rcases hheld k hk with hk | hk
  · exact h.notHeld hk
  · exact Nat.ne_of_lt h.older hk

theorem setupSendSocket_lost (k : ℕ) : Keeps (Lost k) (setupSendSocket os c) := by
  refine setupSocket_quiet (fun index _ => isOption_send index) ?_ ?_ (lost_quiet k)
    fun _ _ h => h
  · exact fun w failure h _ => h.called (fun hj => by cases hj)
  · intro w h
    refine lost_put h (fun hj => by cases hj) fun j hj => ?_
    simp only [State.held, Option.toList_some, List.mem_append, List.mem_singleton] at hj ⊢
    exact hj.imp_left .inl

structure AtHand (i o : ℕ) (w : World) : Prop where
  inSocket : w.state.inSocket = some i
  outSocket : w.state.outSocket = some o
  ne : i ≠ o
  live : Live c i w.log
  older : i < w.log.length

theorem atHand_quiet (i o : ℕ) : QuietStable (AtHand (c := c) i o) := by
  intro w event hquiet h
  refine ⟨h.inSocket, h.outSocket, h.ne, Prepared.concat h.live (hquiet.notClose i), ?_⟩
  rw [Traced.called_log, List.length_append]
  exact Nat.lt_add_right _ h.older

theorem AtHand.replaced {i o : ℕ} {w : World} (h : AtHand (c := c) i o w) {state : State}
    {event : Event sockets} (hne : event.call ≠ .close i)
    (hheld : ∀ j ∈ state.held, j = o ∨ j = w.log.length) :
    Lost i ((w.called event).update fun _ => state) := by
  obtain ⟨hahead, hclosed⟩ := Prepared.concat h.live hne
  refine ⟨⟨version c.sourceIp, ?_⟩, hclosed, ?_, fun hi => ?_⟩
  · exact Prepared.mem ⟨hahead, hclosed⟩ List.mem_cons_self
  · rw [Traced.update_log, Traced.called_log, List.length_append]
    exact Nat.lt_add_right _ h.older
  · rcases hheld i hi with hi | hi
    · exact h.ne hi
    · exact Nat.ne_of_lt h.older hi

theorem createSocket_eq_ok {k : ℕ} {w u : World} (h : createSocket os c w = (.ok k, u)) :
    ∃ reply, os w.log (.socket w.log.length (version c.sourceIp)) = .ok reply := by
  rw [createSocket, bind_ok (get_apply w)] at h
  obtain ⟨reply, v, hperform, -⟩ := bind_eq_ok.mp h
  exact ⟨reply, congrArg Prod.fst hperform⟩

theorem setup_lost {w : World} (hw : Opened hasReusePort c w)
    (h : ∃ k, (newSocket os c w).1 = .ok k) :
    ∃ i, Lost i (setup os hasReusePort c w).2 := by
  obtain ⟨i, o, hi, ho, hne, hin, -⟩ := hw.pair
  refine ⟨i, ?_⟩
  obtain ⟨k, hk⟩ := h
  obtain ⟨_, u, hlook, hcreate⟩ := bind_eq_ok.mp (Prod.ext hk rfl)
  obtain ⟨reply, hreply⟩ := createSocket_eq_ok hcreate
  have hkeeps : Keeps (AtHand (c := c) i o) (lookUpInterface os c) :=
    lookUpInterface_quiet (atHand_quiet i o) fun _ _ h => ⟨h.1, h.2, h.3, h.4, h.5⟩
  have hu : AtHand (c := c) i o u := by
    have hkept := keeps_iff.mp hkeeps w ⟨hi, ho, hne, hin.live, hw.logged.lt_of_live hin.live⟩
    rwa [hlook] at hkept
  have hreceive : Ensures (· = u) (setupReceiveSocket os hasReusePort c) (fun _ => Lost i)
      (fun _ => Lost i) := by
    refine setupSocket_quiet (fun index _ => isOption_receive index) ?_ ?_ (lost_quiet i)
      fun _ _ h => h
    · rintro v failure rfl hfail
      cases hfail.symm.trans hreply
    · rintro v rfl
      refine hu.replaced (fun hj => by cases hj) fun j hj => ?_
      simpa [State.held, hu.outSocket, or_comm] using hj
  rw [setup, bind_ok hlook]
  refine ensures_state (ensures_bind hreceive fun _ => ?_) rfl
  exact ensures_bind (setupSendSocket_lost i) fun _ => ensures_bind
    (ensures_modify fun _ h => ⟨h.1, h.2, h.3, h.4⟩) fun _ => ensures_pure fun _ h => h

theorem openMulticast_lost {w : World} (hw : Opened hasReusePort c w)
    (h : ∃ k, (newSocket os c w).1 = .ok k) :
    ∃ i, Lost i (openMulticast os hasReusePort c w).2 := by
  obtain ⟨i, hi⟩ := setup_lost hw h
  refine ⟨i, ?_⟩
  rw [openMulticast, Prog.attempt]
  rcases hrun : setup os hasReusePort c w with ⟨r, u⟩
  rw [hrun] at hi
  cases r with
  | ok a => exact hi
  | error e =>
    exact ensures_state (ensures_bind (cleanupSockets_lost i) fun _ => ensures_raise fun _ h => h)
      hi

/-- Every socket is either at hand or closed, once, as long as no `open` of an open
communicator gets a new socket, and not any longer. -/
theorem sockets_accounted_iff (os : System sockets) (hasReusePort : Bool)
    (c : MulticastCommunicator) (calls : List Call) :
    Throughout (step os hasReusePort c) Accounted World.start calls ↔
      Each (step os hasReusePort c) (NotReplacing os c) World.start calls := by
  refine throughout_iff_each (I := fun w => Inv hasReusePort c w ∧ Covered w) ?_ ?_ ?_ ?_ calls
  · exact fun w call hw h => ⟨step_inv hw.1 call, step_covered hw.1 hw.2 h⟩
  · exact fun w hw => (accounted_iff hw.1.weaken).mpr hw.2
  · intro w call hw h
    rw [accounted_iff (step_inv hw.1 call).weaken]
    simp only [NotReplacing, Classical.not_imp, not_not] at h
    obtain ⟨rfl, hopen, hsocket⟩ := h
    rcases hw.1 with hopened | hclosed
    · obtain ⟨i, hi⟩ := openMulticast_lost hopened hsocket
      exact hi.not_covered
    · rw [State.isOpen, hclosed.flag] at hopen
      cases hopen
  · exact ⟨inv_start, fun k family hk => (List.not_mem_nil hk).elim⟩

end InVehicle.MulticastSockets
