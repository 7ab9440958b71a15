import InVehicle.UdsExchange

/-!
# Unrelated traffic in a UDS exchange

The exchange on one stream of `recv` results, which every attempt reads on from
where the last one stopped, and one sequence of clock readings. Past its end the
stream is silent. The calls are recorded with the comparisons of the clock with
the deadline.
-/

set_option autoImplicit false

namespace InVehicle.UdsTraffic
open InVehicle.UdsExchange

inductive Act where
  | send (data : Bytes) (timeout : ℚ) (sentBytes : ℕ)
  | check (now start timeout : ℚ)
  | recv (timeout : ℚ) (reply : Bytes)
  deriving DecidableEq, Repr

/-- How an attempt ends, what it did, and what it leaves of the readings and of
the stream. -/
structure Passed where
  exit : Exit
  acts : List Act
  tick : ℕ
  replies : List Bytes

def Passed.after (as : List Act) (p : Passed) : Passed := { p with acts := as ++ p.acts }

variable (fromPayload : Bytes → RawUdsResponse) (clock : ℕ → ℚ)

/-- The `while True` loop of one attempt. -/
def receive (req : Request) : Locals → ℚ → ℕ → List Bytes → Passed
  | l, start, k, [] =>
    .after [.check (clock k) start l.timeout] <|
      if clock k - start > l.timeout then ⟨.left l, [], k + 1, []⟩
      else ⟨.left { l with rawResponse := [] }, [.recv l.timeout []], k + 1, []⟩
  | l, start, k, b :: bs =>
    .after [.check (clock k) start l.timeout] <|
      if clock k - start > l.timeout then ⟨.left l, [], k + 1, b :: bs⟩
      else .after [.recv l.timeout b] <|
        if b = [] then ⟨.left { l with rawResponse := [] }, [], k + 1, bs⟩
        else
          let response := fromPayload b
          if !response.valid then
            ⟨.done (.error (.invalidResponse response.invalidReason)), [], k + 1, bs⟩
          else if response.responseId ≠ req.responseId then
            receive req { l with rawResponse := [], response := some response } start (k + 1) bs
          else if isPending response then
            receive req ⟨defaultUdsPendingTimeout, b, some response⟩ (clock (k + 1)) (k + 2) bs
          else ⟨.done (.ok response), [], k + 1, bs⟩

/-- The lines after the `for` loop. -/
def conclude (l : Locals) : Outcome :=
  if l.rawResponse = [] then .error .noResponse
  else match l.response with
    | some r => .ok r
    | none => .error .unboundLocalError

def after (as : List Act) (x : Outcome × List Act) : Outcome × List Act := (x.1, as ++ x.2)

/-- The `for` loop over the attempts, one number of bytes sent for each. -/
def attemptLoop (req : Request) : Locals → ℕ → List Bytes → List ℕ → Outcome × List Act
  | l, _, _, [] => (conclude l, [])
  | l, k, bs, sentBytes :: rest =>
    after [.send req.payload l.timeout sentBytes] <|
      if sentBytes < req.payload.length then (.error (.runtimeError "Failed to send request"), [])
      else
        let p := receive fromPayload clock req l (clock k) (k + 1) bs
        match p.exit with
        | .done o => (o, p.acts)
        | .left l' => after p.acts (attemptLoop req l' p.tick p.replies rest)

def sendAndReadRawResponse (req : Request) (attempts : ℕ) (timeout : ℚ) (sent : ℕ → ℕ)
    (replies : List Bytes) : Outcome × List Act :=
  attemptLoop fromPayload clock req ⟨timeout, [], none⟩ 0 replies ((List.range attempts).map sent)

/-! ## The same exchange, attempt by attempt -/

def toEvent : Act → Option Event
  | .send data timeout sentBytes => some (.send data timeout sentBytes)
  | .recv timeout reply => some (.recv timeout reply)
  | .check _ _ _ => none

@[simp] theorem events_check (now start timeout : ℚ) (as : List Act) :
    (Act.check now start timeout :: as).filterMap toEvent = as.filterMap toEvent := rfl

@[simp] theorem events_send (data : Bytes) (timeout : ℚ) (n : ℕ) (as : List Act) :
    (Act.send data timeout n :: as).filterMap toEvent =
      .send data timeout n :: as.filterMap toEvent := rfl

@[simp] theorem events_recv (timeout : ℚ) (b : Bytes) (as : List Act) :
    (Act.recv timeout b :: as).filterMap toEvent = .recv timeout b :: as.filterMap toEvent := rfl

theorem receive_cons (req : Request) (l : Locals) (start : ℚ) (k : ℕ) (b : Bytes)
    (bs : List Bytes) :
    receive fromPayload clock req l start k (b :: bs) =
      .after [.check (clock k) start l.timeout] (if clock k - start > l.timeout then
        ⟨.left l, [], k + 1, b :: bs⟩ else .after [.recv l.timeout b]
        (match kind fromPayload req b with
        | .silence => ⟨.left { l with rawResponse := [] }, [], k + 1, bs⟩
        | .invalid => ⟨.done (.error (.invalidResponse (fromPayload b).invalidReason)), [], k + 1,
            bs⟩
        | .foreign => receive fromPayload clock req
            { l with rawResponse := [], response := some (fromPayload b) } start (k + 1) bs
        | .pending => receive fromPayload clock req
            ⟨defaultUdsPendingTimeout, b, some (fromPayload b)⟩ (clock (k + 1)) (k + 2) bs
        | .answer => ⟨.done (.ok (fromPayload b)), [], k + 1, bs⟩)) := by
  simp only [receive, kind]
  split_ifs <;> rfl

theorem receive_turns (req : Request) (l : Locals) (start : ℚ) (k : ℕ) (bs : List Bytes) :
    ∃ ts, UdsExchange.receive fromPayload req l start ts =
      ((receive fromPayload clock req l start k bs).exit,
        (receive fromPayload clock req l start k bs).acts.filterMap toEvent) := by
  induction bs generalizing l start k with
  | nil =>
    by_cases hl : clock k - start > l.timeout
    · refine ⟨[⟨clock k, [], 0⟩], ?_⟩
      simp [UdsExchange.receive, receive, Passed.after, hl]
    · refine ⟨[], ?_⟩
      simp [UdsExchange.receive, receive, Passed.after, hl]
  | cons b bs ih =>
    by_cases hl : clock k - start > l.timeout
    · refine ⟨[⟨clock k, b, 0⟩], ?_⟩
      rw [UdsExchange.receive_cons, receive_cons, if_pos hl, if_pos hl]
      rfl
    cases hk : kind fromPayload req b with
    | silence =>
      refine ⟨[⟨clock k, b, 0⟩], ?_⟩
      have hb : b = [] := by
        unfold kind at hk
        split_ifs at hk with h
        exact h
      rw [UdsExchange.receive_cons, receive_cons, if_neg hl, if_neg hl]
      simp only [hb]
      rfl
    | invalid | answer =>
      refine ⟨[⟨clock k, b, 0⟩], ?_⟩
      rw [UdsExchange.receive_cons, receive_cons, if_neg hl, if_neg hl]
      simp [Passed.after, hk]
    | foreign =>
      obtain ⟨ts, hts⟩ :=
        ih { l with rawResponse := [], response := some (fromPayload b) } start (k + 1)
      refine ⟨⟨clock k, b, 0⟩ :: ts, ?_⟩
      rw [UdsExchange.receive_cons, receive_cons, if_neg hl, if_neg hl]
      simp [Passed.after, UdsExchange.after, hk, hts]
    | pending =>
      obtain ⟨ts, hts⟩ :=
        ih ⟨defaultUdsPendingTimeout, b, some (fromPayload b)⟩ (clock (k + 1)) (k + 2)
      refine ⟨⟨clock k, b, clock (k + 1)⟩ :: ts, ?_⟩
      rw [UdsExchange.receive_cons, receive_cons, if_neg hl, if_neg hl]
      simp [Passed.after, UdsExchange.after, hk, hts]

theorem attemptLoop_attempts (req : Request) (l : Locals) (k : ℕ) (bs : List Bytes)
    (sents : List ℕ) : ∃ as : List Attempt, as.length = sents.length ∧
      UdsExchange.attemptLoop fromPayload req l as =
        ((attemptLoop fromPayload clock req l k bs sents).1,
          (attemptLoop fromPayload clock req l k bs sents).2.filterMap toEvent) := by
  induction sents generalizing l k bs with
  | nil =>
    refine ⟨[], rfl, ?_⟩
    simp only [UdsExchange.attemptLoop, attemptLoop, conclude, List.filterMap_nil]
    split_ifs with h
    · rfl
    · cases l.response <;> rfl
  | cons sent sents ih =>
    obtain ⟨ts, hts⟩ := receive_turns fromPayload clock req l (clock k) (k + 1) bs
    generalize hp : receive fromPayload clock req l (clock k) (k + 1) bs = p at hts
    by_cases hs : sent < req.payload.length
    · refine ⟨⟨sent, clock k, ts⟩ :: sents.map fun n => ⟨n, 0, []⟩, by simp, ?_⟩
      rw [attemptLoop_short fromPayload req l ⟨sent, clock k, ts⟩ _ hs]
      simp [attemptLoop, hs, after]
    cases hx : p.exit with
    | done o =>
      refine ⟨⟨sent, clock k, ts⟩ :: sents.map fun n => ⟨n, 0, []⟩, by simp, ?_⟩
      rw [attemptLoop_done fromPayload req l ⟨sent, clock k, ts⟩ _ o _ hs (hts.trans (by rw [hx]))]
      simp [attemptLoop, hs, hp, hx, after]
    | left l' =>
      obtain ⟨as, hlen, has⟩ := ih l' p.tick p.replies
      refine ⟨⟨sent, clock k, ts⟩ :: as, by simp [hlen], ?_⟩
      rw [attemptLoop_left fromPayload req l l' ⟨sent, clock k, ts⟩ _ _ hs
        (hts.trans (by rw [hx])), has]
      simp [attemptLoop, hs, hp, hx, after, UdsExchange.after]

theorem stream_exchange (req : Request) (attempts : ℕ) (timeout : ℚ) (sent : ℕ → ℕ)
    (replies : List Bytes) : ∃ history,
      UdsExchange.sendAndReadRawResponse fromPayload req attempts timeout history =
        ((sendAndReadRawResponse fromPayload clock req attempts timeout sent replies).1,
          (sendAndReadRawResponse fromPayload clock req attempts timeout sent replies).2.filterMap
            toEvent) := by
  obtain ⟨as, hlen, has⟩ := attemptLoop_attempts fromPayload clock req ⟨timeout, [], none⟩ 0
    replies ((List.range attempts).map sent)
  refine ⟨fun i => as.getD i ⟨0, 0, []⟩, ?_⟩
  have hmap : (List.range attempts).map (fun i => as.getD i ⟨0, 0, []⟩) = as := by
    rw [List.length_map, List.length_range] at hlen
    refine List.ext_getElem (by simp [hlen]) fun i hi hi' => ?_
    simp [hi']
  rw [UdsExchange.sendAndReadRawResponse, hmap, has]
  rfl

/-! ## Inserted replies -/

/-- `ys` is `xs` with finitely many elements of `U` inserted. -/
inductive Inserted {α : Type} (U : α → Prop) : List α → List α → Prop
  | nil : Inserted U [] []
  | keep (x : α) {xs ys : List α} (rest : Inserted U xs ys) : Inserted U (x :: xs) (x :: ys)
  | insert {y : α} {xs ys : List α} (h : U y) (rest : Inserted U xs ys) : Inserted U xs (y :: ys)

/-- A valid response, positive, negative or pending, to another service. -/
def Unrelated (req : Request) (b : Bytes) : Prop :=
  b ≠ [] ∧ (fromPayload b).valid = true ∧ (fromPayload b).responseId ≠ req.responseId

instance (req : Request) (b : Bytes) : Decidable (Unrelated fromPayload req b) :=
  inferInstanceAs (Decidable (_ ∧ _ ∧ _))

def OnTime : Act → Prop
  | .check now start timeout => now - start ≤ timeout
  | _ => True

instance : DecidablePred OnTime
  | .check now start timeout => inferInstanceAs (Decidable (now - start ≤ timeout))
  | .send _ _ _ => isTrue trivial
  | .recv _ _ => isTrue trivial

def InTime (as : List Act) : Prop := ∀ a ∈ as, OnTime a

instance (as : List Act) : Decidable (InTime as) :=
  inferInstanceAs (Decidable (∀ a ∈ as, OnTime a))

def transmissions (as : List Act) : List Act :=
  as.filter fun
    | .send _ _ _ => true
    | _ => false

theorem kind_unrelated (req : Request) (b : Bytes) (h : Unrelated fromPayload req b) :
    kind fromPayload req b = .foreign := by
  obtain ⟨hb, hvalid, hid⟩ := h
  simp [kind, hb, hvalid, hid]

theorem inTime_append (as bs : List Act) : InTime (as ++ bs) ↔ InTime as ∧ InTime bs :=
  List.forall_mem_append

theorem inTime_check (now start timeout : ℚ) (as : List Act) :
    InTime (.check now start timeout :: as) ↔ ¬ now - start > timeout ∧ InTime as := by
  rw [InTime, List.forall_mem_cons, InTime, OnTime, not_lt]

/-- Two attempts end alike: in the same result, or both without one. What they
leave of their streams is related again. -/
inductive Alike (U : Bytes → Prop) (p q : Passed) : Prop
  | done (o : Outcome) (hp : p.exit = .done o) (hq : q.exit = .done o)
  | left (l m : Locals) (hp : p.exit = .left l) (hq : q.exit = .left m)
      (htimeout : l.timeout = m.timeout) (hl : l.rawResponse = []) (hm : m.rawResponse = [])
      (rest : Inserted U p.replies q.replies)

theorem alike_after {U : Bytes → Prop} {p q : Passed} (as bs : List Act) (h : Alike U p q) :
    Alike U (p.after as) (q.after bs) := by
  cases h with
  | done o hp hq => exact .done o hp hq
  | left l m hp hq ht hl hm rest => exact .left l m hp hq ht hl hm rest

theorem receive_nil_inTime (req : Request) (l : Locals) (start : ℚ) (k : ℕ)
    (h : InTime (receive fromPayload clock req l start k []).acts) :
    receive fromPayload clock req l start k [] =
      .after [.check (clock k) start l.timeout]
        ⟨.left { l with rawResponse := [] }, [.recv l.timeout []], k + 1, []⟩ := by
  have hl := ((inTime_check _ _ _ _).mp h).1
  rw [receive, if_neg hl]

theorem receive_inTime (req : Request) (l : Locals) (start : ℚ) (k : ℕ) (b : Bytes)
    (bs : List Bytes) (h : InTime (receive fromPayload clock req l start k (b :: bs)).acts) :
    ∃ p : Passed, receive fromPayload clock req l start k (b :: bs) =
        .after [.check (clock k) start l.timeout, .recv l.timeout b] p ∧ InTime p.acts ∧
      p = match kind fromPayload req b with
        | .silence => ⟨.left { l with rawResponse := [] }, [], k + 1, bs⟩
        | .invalid => ⟨.done (.error (.invalidResponse (fromPayload b).invalidReason)), [], k + 1,
            bs⟩
        | .foreign => receive fromPayload clock req
            { l with rawResponse := [], response := some (fromPayload b) } start (k + 1) bs
        | .pending => receive fromPayload clock req
            ⟨defaultUdsPendingTimeout, b, some (fromPayload b)⟩ (clock (k + 1)) (k + 2) bs
        | .answer => ⟨.done (.ok (fromPayload b)), [], k + 1, bs⟩ := by
  rw [receive_cons] at h ⊢
  have hl := ((inTime_check _ _ _ _).mp h).1
  rw [if_neg hl] at h ⊢
  exact ⟨_, rfl, ((inTime_append [_, _] _).mp h).2, rfl⟩

theorem receive_inserted (req : Request) (clock' : ℕ → ℚ) {bs bs' : List Bytes}
    (h : Inserted (Unrelated fromPayload req) bs bs') (l m : Locals) (start start' : ℚ) (k k' : ℕ)
    (htimeout : l.timeout = m.timeout)
    (hl : InTime (receive fromPayload clock req l start k bs).acts)
    (hm : InTime (receive fromPayload clock' req m start' k' bs').acts) :
    Alike (Unrelated fromPayload req) (receive fromPayload clock req l start k bs)
      (receive fromPayload clock' req m start' k' bs') := by
  induction h generalizing l m start start' k k' with
  | nil =>
    rw [receive_nil_inTime _ _ _ _ _ _ hl, receive_nil_inTime _ _ _ _ _ _ hm]
    exact .left _ _ rfl rfl htimeout rfl rfl .nil
  | keep b rest ih =>
    obtain ⟨p, hp, hpt, hpk⟩ := receive_inTime _ _ _ _ _ _ _ _ hl
    obtain ⟨q, hq, hqt, hqk⟩ := receive_inTime _ _ _ _ _ _ _ _ hm
    rw [hp, hq]
    refine alike_after _ _ ?_
    cases hk : kind fromPayload req b with
    | silence =>
      simp only [hk] at hpk hqk
      subst hpk hqk
      exact .left _ _ rfl rfl htimeout rfl rfl rest
    | invalid | answer =>
      simp only [hk] at hpk hqk
      subst hpk hqk
      exact .done _ rfl rfl
    | foreign =>
      simp only [hk] at hpk hqk
      subst hpk hqk
      exact ih _ _ _ _ _ _ htimeout hpt hqt
    | pending =>
      -- the new deadlines of the two runs differ, the timeouts do not
      simp only [hk] at hpk hqk
      subst hpk hqk
      exact ih _ _ _ _ _ _ rfl hpt hqt
  | insert hU rest ih =>
    obtain ⟨q, hq, hqt, hqk⟩ := receive_inTime _ _ _ _ _ _ _ _ hm
    simp only [kind_unrelated fromPayload req _ hU] at hqk
    subst hqk
    rw [hq]
    exact alike_after [] _ (ih _ _ _ _ _ _ htimeout hl hqt)

theorem transmissions_receive (req : Request) (l : Locals) (start : ℚ) (k : ℕ)
    (bs : List Bytes) : transmissions (receive fromPayload clock req l start k bs).acts = [] := by
  induction bs generalizing l start k with
  | nil =>
    simp only [receive]
    split_ifs <;> rfl
  | cons b bs ih =>
    rw [receive_cons]
    split_ifs
    · rfl
    cases kind fromPayload req b with
    | silence | invalid | answer => rfl
    | foreign | pending => exact ih _ _ _

section Attempt
variable {req : Request} {l : Locals} {k sent : ℕ} {bs : List Bytes} {sents : List ℕ}

theorem attemptLoop_done {o : Outcome} (hs : ¬ sent < req.payload.length)
    (hx : (receive fromPayload clock req l (clock k) (k + 1) bs).exit = .done o) :
    attemptLoop fromPayload clock req l k bs (sent :: sents) =
      (o, .send req.payload l.timeout sent ::
        (receive fromPayload clock req l (clock k) (k + 1) bs).acts) := by
  simp only [attemptLoop, if_neg hs, hx]
  rfl

theorem attemptLoop_left {l' : Locals} (hs : ¬ sent < req.payload.length)
    (hx : (receive fromPayload clock req l (clock k) (k + 1) bs).exit = .left l') :
    attemptLoop fromPayload clock req l k bs (sent :: sents) =
      after (.send req.payload l.timeout sent ::
          (receive fromPayload clock req l (clock k) (k + 1) bs).acts)
        (attemptLoop fromPayload clock req l'
          (receive fromPayload clock req l (clock k) (k + 1) bs).tick
          (receive fromPayload clock req l (clock k) (k + 1) bs).replies sents) := by
  simp only [attemptLoop, if_neg hs, hx]
  rfl

theorem inTime_receive (hs : ¬ sent < req.payload.length)
    (h : InTime (attemptLoop fromPayload clock req l k bs (sent :: sents)).2) :
    InTime (receive fromPayload clock req l (clock k) (k + 1) bs).acts := by
  cases hx : (receive fromPayload clock req l (clock k) (k + 1) bs).exit with
  | done o =>
    rw [attemptLoop_done fromPayload clock hs hx] at h
    exact ((inTime_append [_] _).mp h).2
  | left l' =>
    rw [attemptLoop_left fromPayload clock hs hx] at h
    exact ((inTime_append [_] _).mp ((inTime_append _ _).mp h).1).2

end Attempt

theorem transmissions_after (req : Request) (l : Locals) (start : ℚ) (k sent : ℕ)
    (bs : List Bytes) (as : List Act) :
    transmissions (.send req.payload l.timeout sent ::
        ((receive fromPayload clock req l start k bs).acts ++ as)) =
      .send req.payload l.timeout sent :: transmissions as := by
  have h := transmissions_receive fromPayload clock req l start k bs
  simp only [transmissions] at h ⊢
  simp [h]

theorem attemptLoop_inserted (req : Request) (clock' : ℕ → ℚ) (sents : List ℕ)
    {bs bs' : List Bytes} (h : Inserted (Unrelated fromPayload req) bs bs') (l m : Locals)
    (k k' : ℕ) (htimeout : l.timeout = m.timeout) (hl : l.rawResponse = [])
    (hm : m.rawResponse = []) (hin : InTime (attemptLoop fromPayload clock req l k bs sents).2)
    (hin' : InTime (attemptLoop fromPayload clock' req m k' bs' sents).2) :
    (attemptLoop fromPayload clock' req m k' bs' sents).1 =
        (attemptLoop fromPayload clock req l k bs sents).1 ∧
      transmissions (attemptLoop fromPayload clock' req m k' bs' sents).2 =
        transmissions (attemptLoop fromPayload clock req l k bs sents).2 := by
  induction sents generalizing bs bs' l m k k' with
  | nil => simp [attemptLoop, conclude, hl, hm]
  | cons sent sents ih =>
    by_cases hs : sent < req.payload.length
    · simp [attemptLoop, hs, after, htimeout]
    have halike := receive_inserted fromPayload clock req clock' h l m _ _ _ _ htimeout
      (inTime_receive _ _ hs hin) (inTime_receive _ _ hs hin')
    cases halike with
    | done o hx hx' =>
      rw [attemptLoop_done _ _ hs hx, attemptLoop_done _ _ hs hx']
      have ht := transmissions_after fromPayload clock req l (clock k) (k + 1) sent bs []
      have ht' := transmissions_after fromPayload clock' req m (clock' k') (k' + 1) sent bs' []
      rw [List.append_nil] at ht ht'
      exact ⟨rfl, by rw [ht, ht', htimeout]⟩
    | left l' m' hx hx' ht hl' hm' rest =>
      rw [attemptLoop_left _ _ hs hx] at hin ⊢
      rw [attemptLoop_left _ _ hs hx'] at hin' ⊢
      obtain ⟨ho, htr⟩ := ih rest l' m' _ _ ht hl' hm' ((inTime_append _ _).mp hin).2
        ((inTime_append _ _).mp hin').2
      refine ⟨ho, ?_⟩
      simp only [after, List.cons_append, transmissions_after, htr]
      rw [htimeout]

/-- Within the deadlines, replies to other services make no difference. -/
theorem unrelated_traffic (req : Request) (attempts : ℕ) (timeout : ℚ) (sent : ℕ → ℕ)
    (clock clock' : ℕ → ℚ) (replies replies' : List Bytes)
    (h : Inserted (Unrelated fromPayload req) replies replies')
    (hin : InTime (sendAndReadRawResponse fromPayload clock req attempts timeout sent replies).2)
    (hin' : InTime
      (sendAndReadRawResponse fromPayload clock' req attempts timeout sent replies').2) :
    (sendAndReadRawResponse fromPayload clock' req attempts timeout sent replies').1 =
        (sendAndReadRawResponse fromPayload clock req attempts timeout sent replies).1 ∧
      transmissions
          (sendAndReadRawResponse fromPayload clock' req attempts timeout sent replies').2 =
        transmissions
          (sendAndReadRawResponse fromPayload clock req attempts timeout sent replies).2 :=
  attemptLoop_inserted fromPayload clock req clock' _ h _ _ _ _ rfl rfl rfl hin hin'

/-- A tester present request that stays unanswered once. Its pending reply and its
answer come in the second attempt, among replies to a request for data. -/
theorem unrelated_tester_present :
    (sendAndReadRawResponse isoFromPayload (fun k => k) ⟨[0x3E, 0], 0x7E⟩ 2 10 (fun _ => 2)
        [[0x7F, 0x22, 0x78], [], [0x7F, 0x3E, 0x78], [0x62, 0xF1, 0x90], [0x7E, 0]]).1 =
      .ok ⟨true, "", 0x7E, true, 0, "PositiveResponse", [0]⟩ := by
  have h := unrelated_traffic isoFromPayload ⟨[0x3E, 0], 0x7E⟩ 2 10 (fun _ => 2) (fun k => k)
    (fun k => k) [[], [0x7F, 0x3E, 0x78], [0x7E, 0]]
    [[0x7F, 0x22, 0x78], [], [0x7F, 0x3E, 0x78], [0x62, 0xF1, 0x90], [0x7E, 0]]
    (.insert (by decide) <| .keep _ <| .keep _ <| .insert (by decide) <| .keep _ .nil)
    (by decide +kernel) (by decide +kernel)
  exact h.1.trans (by decide +kernel)

end InVehicle.UdsTraffic
