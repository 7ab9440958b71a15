import InVehicle.UdsExchange

/-!
# What a UDS exchange hands to its caller

A response that the loops return is the last payload they took from the link.
It is the answer to the request, unless the loops fall through while a pending
reply is still held: that reply is then returned as the result.
-/

set_option autoImplicit false

namespace InVehicle.UdsSoundness
open InVehicle.UdsExchange

variable (fromPayload : Bytes → RawUdsResponse)

/-- A non-empty `raw_response` at a loop head is the pending reply that
`response` was parsed from. -/
def Holds (req : Request) (l : Locals) : Prop :=
  l.rawResponse ≠ [] → kind fromPayload req l.rawResponse = .pending ∧
    l.response = some (fromPayload l.rawResponse)

theorem holds_empty (req : Request) (T : ℚ) (r : Option RawUdsResponse) :
    Holds fromPayload req ⟨T, [], r⟩ := fun h => absurd rfl h

/-- The non-empty payloads taken from the link, in order. -/
def replies (es : List Event) : List Bytes :=
  es.filterMap fun e => match e with
    | .send _ _ _ => none
    | .recv _ b => if b = [] then none else some b

@[simp] theorem replies_append (es es' : List Event) :
    replies (es ++ es') = replies es ++ replies es' := by
  simp [replies]

/-- What the receive loop hands to the attempt loop: the last payload it took
is an answer, it raised, or it left with that payload still held. -/
def Received (req : Request) (l : Locals) : Exit × List Event → Prop
  | (.done (.ok r), es) => ∃ es' T b, es = es' ++ [.recv T b] ∧ r = fromPayload b ∧
      kind fromPayload req b = .answer
  | (.done (.error e), _) => ∃ reason, e = .invalidResponse reason
  | (.left l', es) => Holds fromPayload req l' ∧ (l'.rawResponse ≠ [] →
      (es = [] ∧ l' = l) ∨ ∃ es' T, es = es' ++ [.recv T l'.rawResponse])

theorem received_after (req : Request) (l l₀ : Locals) (T : ℚ) (b : Bytes)
    (x : Exit × List Event) (h : Received fromPayload req l x)
    (hb : l.rawResponse ≠ [] → l.rawResponse = b) :
    Received fromPayload req l₀ (after [.recv T b] x) := by
  obtain ⟨x, es⟩ := x
  match x, h with
  | .done (.ok r), ⟨es', T', b', he, hr, hk⟩ =>
    exact ⟨.recv T b :: es', T', b', by simp [he], hr, hk⟩
  | .done (.error e), h => exact h
  | .left l', ⟨hh, hl⟩ =>
    refine ⟨hh, fun hn => Or.inr ?_⟩
    rcases hl hn with ⟨he, rfl⟩ | ⟨es', T', he⟩
    · exact ⟨[], T, by simp [he, hb hn]⟩
    · exact ⟨.recv T b :: es', T', by simp [he]⟩

theorem receive_received (req : Request) (ts : List Turn) (l : Locals) (start : ℚ)
    (hl : Holds fromPayload req l) :
    Received fromPayload req l (receive fromPayload req l start ts) := by
  induction ts generalizing l start with
  | nil => exact ⟨holds_empty fromPayload req _ _, fun h => absurd rfl h⟩
  | cons t ts ih =>
    rw [receive_cons]
    by_cases hn : t.now - start > l.timeout
    · rw [if_pos hn]
      exact ⟨hl, fun _ => Or.inl ⟨rfl, rfl⟩⟩
    rw [if_neg hn]
    cases hk : kind fromPayload req t.reply with
    | silence => exact ⟨holds_empty fromPayload req _ _, fun h => absurd rfl h⟩
    | invalid => exact ⟨_, rfl⟩
    | foreign =>
      exact received_after fromPayload req _ _ _ _ _
        (ih _ start (holds_empty fromPayload req _ _)) (fun h => absurd rfl h)
    | pending =>
      exact received_after fromPayload req _ _ _ _ _
        (ih _ t.restart (fun _ => ⟨hk, rfl⟩)) (fun _ => rfl)
    | answer => exact ⟨[], l.timeout, t.reply, rfl, rfl, hk⟩

/-- The last payload taken from the link is `b`; only sends follow it. -/
def LastReply (es : List Event) (b : Bytes) : Prop :=
  ∃ before T rest, es = before ++ .recv T b :: rest ∧ replies rest = []

/-- What the attempt loop returns when it starts with nothing held or with
the reply `held`. -/
def Returned (req : Request) (l : Locals) : Outcome × List Event → Prop
  | (.ok r, es) => ∃ b, r = fromPayload b ∧
      (kind fromPayload req b = .answer ∨ kind fromPayload req b = .pending) ∧
      (LastReply es b ∨ replies es = [] ∧ l.rawResponse = b)
  | (.error e, _) => (∃ text, e = .runtimeError text) ∨ (∃ reason, e = .invalidResponse reason) ∨
      e = .noResponse

theorem returned_after (req : Request) (l l' : Locals) (es : List Event)
    (x : Outcome × List Event) (h : Returned fromPayload req l' x)
    (hes : l'.rawResponse ≠ [] → replies es = [] ∧ l' = l ∨
      ∃ es' T, es = es' ++ [.recv T l'.rawResponse]) :
    Returned fromPayload req l (after es x) := by
  match x, h with
  | (.error e, es'), he => exact he
  | (.ok r, es'), ⟨b, hr, hk, hb⟩ =>
    refine ⟨b, hr, hk, ?_⟩
    rcases hb with ⟨before, T, rest, he, hn⟩ | ⟨hn, rfl⟩
    · exact Or.inl ⟨es ++ before, T, rest, by simp [he], hn⟩
    · have hne : l'.rawResponse ≠ [] := by
        rcases hk with hk | hk
        · exact (kind_answer fromPayload req _ hk).1
        · exact (kind_pending fromPayload req _ hk).1
      rcases hes hne with ⟨he, rfl⟩ | ⟨es'', T, rfl⟩
      · exact Or.inr ⟨by simp [he, hn], rfl⟩
      · exact Or.inl ⟨es'', T, es', by simp, hn⟩

theorem loop_returned (req : Request) (as : List Attempt) (l : Locals)
    (hl : Holds fromPayload req l) :
    Returned fromPayload req l (attemptLoop fromPayload req l as) := by
  induction as generalizing l with
  | nil =>
    unfold attemptLoop
    by_cases hr : l.rawResponse = []
    · simp [hr, Returned]
    · obtain ⟨hk, hs⟩ := hl hr
      simp only [hr, hs, if_false]
      exact ⟨_, rfl, Or.inr hk, Or.inr ⟨rfl, rfl⟩⟩
  | cons a as ih =>
    by_cases hs : a.sentBytes < req.payload.length
    · rw [attemptLoop_short fromPayload req l a as hs]
      exact Or.inl ⟨_, rfl⟩
    have hr := receive_received fromPayload req a.turns l a.start hl
    rcases hx : receive fromPayload req l a.start a.turns with ⟨exit, es⟩
    rw [hx] at hr
    cases exit with
    | done outcome =>
      rw [attemptLoop_done fromPayload req l a as _ _ hs hx]
      cases outcome with
      | ok r =>
        obtain ⟨es', T, b, rfl, hrb, hk⟩ := hr
        exact ⟨b, hrb, Or.inl hk,
          Or.inl ⟨.send req.payload l.timeout a.sentBytes :: es', T, [], rfl, rfl⟩⟩
      | error e => exact Or.inr (Or.inl hr)
    | left l' =>
      rw [attemptLoop_left fromPayload req l l' a as es hs hx]
      apply returned_after fromPayload req l l' _ _ (ih l' hr.1)
      intro hn
      rcases hr.2 hn with ⟨rfl, rfl⟩ | ⟨es', T, rfl⟩
      · exact Or.inl ⟨rfl, rfl⟩
      · exact Or.inr ⟨.send req.payload l.timeout a.sentBytes :: es', T, rfl⟩

theorem returns_pending_nil (req : Request) (l : Locals) (hl : Holds fromPayload req l) :
    (∃ r, (attemptLoop fromPayload req l []).1 = .ok r ∧ isPending r = true) ↔
      FallsThrough fromPayload req l.timeout l.held [] true := by
  unfold attemptLoop
  by_cases hr : l.rawResponse = []
  · have hh : l.held = false := by simp [Locals.held, hr]
    simp only [hr, if_true, hh]
    constructor
    · rintro ⟨r, he, -⟩
      cases he
    · intro h
      cases h
  · obtain ⟨hk, hs⟩ := hl hr
    have hh : l.held = true := by simp [Locals.held, hr]
    simp only [hr, hs, if_false, hh]
    exact ⟨fun _ => .nil _ _, fun _ => ⟨_, rfl, (kind_pending fromPayload req _ hk).2.2.2⟩⟩

theorem returns_pending_short (req : Request) (l : Locals) (a : Attempt) (as : List Attempt)
    (hs : a.sentBytes < req.payload.length) :
    (∃ r, (attemptLoop fromPayload req l (a :: as)).1 = .ok r ∧ isPending r = true) ↔
      FallsThrough fromPayload req l.timeout l.held (a :: as) true := by
  rw [attemptLoop_short fromPayload req l a as hs]
  constructor
  · rintro ⟨r, he, -⟩
    cases he
  · intro h
    cases h with
    | cons hn _ _ => exact absurd hs hn

theorem returns_pending_done (req : Request) (l : Locals) (a : Attempt) (as : List Attempt)
    {o : Outcome} {es : List Event} (hs : ¬ a.sentBytes < req.payload.length)
    (hl : Holds fromPayload req l)
    (hx : receive fromPayload req l a.start a.turns = (.done o, es)) :
    (∃ r, (attemptLoop fromPayload req l (a :: as)).1 = .ok r ∧ isPending r = true) ↔
      FallsThrough fromPayload req l.timeout l.held (a :: as) true := by
  have hr := receive_received fromPayload req a.turns l a.start hl
  rw [hx] at hr
  rw [attemptLoop_done fromPayload req l a as _ _ hs hx]
  constructor
  · rintro ⟨r, he, hp⟩
    cases he
    obtain ⟨es', T, b, -, rfl, hk⟩ := hr
    simp [(kind_answer fromPayload req b hk).2.2.2] at hp
  · intro h
    cases h with
    | cons _ hl' _ =>
      obtain ⟨l', es', he, -, -⟩ := receive_of_left fromPayload req a.turns l a.start _ _ hl'
      rw [hx] at he
      cases he

theorem returns_pending_iff (req : Request) (as : List Attempt) (l : Locals)
    (hl : Holds fromPayload req l) :
    (∃ r, (attemptLoop fromPayload req l as).1 = .ok r ∧ isPending r = true) ↔
      FallsThrough fromPayload req l.timeout l.held as true := by
  induction as generalizing l with
  | nil => exact returns_pending_nil fromPayload req l hl
  | cons a as ih =>
    by_cases hs : a.sentBytes < req.payload.length
    · exact returns_pending_short fromPayload req l a as hs
    rcases hx : receive fromPayload req l a.start a.turns with ⟨exit, es⟩
    cases exit with
    | done o => exact returns_pending_done fromPayload req l a as hs hl hx
    | left l' =>
      have hr := receive_received fromPayload req a.turns l a.start hl
      rw [hx] at hr
      have hleft := left_of_receive fromPayload req a.turns l l' a.start es hx
      rw [attemptLoop_left fromPayload req l l' a as es hs hx]
      constructor
      · intro h
        exact .cons hs hleft ((ih l' hr.1).mp h)
      · intro h
        cases h with
        | cons _ hl' rest =>
          obtain ⟨l'', es', he, rfl, rfl⟩ :=
            receive_of_left fromPayload req a.turns l a.start _ _ hl'
          rw [hx] at he
          cases he
          exact (ih l' hr.1).mpr rest

/-- The response was parsed from a payload taken after a complete
transmission of the request by the same call. -/
def ReceivedAfterSend (req : Request) (es : List Event) (r : RawUdsResponse) : Prop :=
  ∃ before T n between T' b rest,
    es = before ++ .send req.payload T n :: between ++ .recv T' b :: rest ∧
      req.payload.length ≤ n ∧ b ≠ [] ∧ r = fromPayload b

def Sound (req : Request) : Outcome × List Event → Prop
  | (.ok r, es) => ReceivedAfterSend fromPayload req es r ∧ r.valid = true ∧
      r.responseId = req.responseId ∧ isPending r = false
  | (.error e, _) => (∃ text, e = .runtimeError text) ∨ (∃ reason, e = .invalidResponse reason) ∨
      e = .noResponse

theorem loop_head (req : Request) (as : List Attempt) (l : Locals) (r : RawUdsResponse)
    (h : (attemptLoop fromPayload req l as).1 = .ok r) (hl : l.rawResponse = []) :
    ∃ n es, (attemptLoop fromPayload req l as).2 = .send req.payload l.timeout n :: es ∧
      req.payload.length ≤ n := by
  cases as with
  | nil => simp [attemptLoop, hl] at h
  | cons a as =>
    by_cases hs : a.sentBytes < req.payload.length
    · simp [attemptLoop_short fromPayload req l a as hs] at h
    · exact ⟨a.sentBytes, _, rfl, not_lt.mp hs⟩

theorem lastReply_behind {data : Bytes} {T : ℚ} {n : ℕ} {es : List Event} {b : Bytes}
    (h : LastReply (.send data T n :: es) b) :
    ∃ between T' rest, es = between ++ .recv T' b :: rest := by
  obtain ⟨before, T', rest, he, -⟩ := h
  cases before with
  | nil => cases he
  | cons e before => exact ⟨before, T', rest, (List.cons.inj he).2⟩

theorem lastReply_received (req : Request) (T : ℚ) (n : ℕ) (es : List Event) (b : Bytes)
    (hn : req.payload.length ≤ n) (hb : b ≠ [])
    (h : LastReply (.send req.payload T n :: es) b) :
    ReceivedAfterSend fromPayload req (.send req.payload T n :: es) (fromPayload b) := by
  obtain ⟨between, T', rest, rfl⟩ := lastReply_behind h
  exact ⟨[], T, n, between, T', b, rest, rfl, hn, hb, rfl⟩

/-- A run of the exchange is sound in every respect unless it falls through
while a pending reply is held. -/
theorem exchange_sound_iff (req : Request) (attempts : ℕ) (timeout : ℚ) (history : ℕ → Attempt) :
    Sound fromPayload req (sendAndReadRawResponse fromPayload req attempts timeout history) ↔
      ¬ FallsThrough fromPayload req timeout false ((List.range attempts).map history) true := by
  have hl := holds_empty fromPayload req timeout none
  have hret := loop_returned fromPayload req ((List.range attempts).map history) _ hl
  have hiff := returns_pending_iff fromPayload req ((List.range attempts).map history) _ hl
  change Sound fromPayload req (attemptLoop fromPayload req ⟨timeout, [], none⟩ _) ↔ _
  change _ ↔ FallsThrough fromPayload req timeout false _ true at hiff
  rw [← hiff]
  match hx : attemptLoop fromPayload req ⟨timeout, [], none⟩
      ((List.range attempts).map history) with
  | (.error e, es) =>
    rw [hx] at hret
    exact ⟨fun _ ⟨_, he, _⟩ => (by cases he), fun _ => hret⟩
  | (.ok r, es) =>
    rw [hx] at hret
    obtain ⟨b, hr, hk, hb⟩ := hret
    have hne : b ≠ [] := by
      rcases hk with hk | hk
      · exact (kind_answer fromPayload req b hk).1
      · exact (kind_pending fromPayload req b hk).1
    have hlast : LastReply es b := by
      rcases hb with hb | ⟨-, hb⟩
      · exact hb
      · exact absurd hb.symm hne
    obtain ⟨n, es', he, hn⟩ := loop_head fromPayload req _ _ r (congrArg Prod.fst hx) rfl
    rw [hx] at he
    simp only at he
    subst he hr
    have hrec := lastReply_received fromPayload req timeout n es' b hn hne hlast
    rcases hk with hk | hk
    · obtain ⟨-, hv, hid, hp⟩ := kind_answer fromPayload req b hk
      refine ⟨fun _ ⟨r', he, hp'⟩ => ?_, fun _ => ⟨hrec, hv, hid, hp⟩⟩
      cases he
      simp [hp] at hp'
    · obtain ⟨-, hv, hid, hp⟩ := kind_pending fromPayload req b hk
      refine ⟨fun hs => ?_, fun hs => absurd ⟨_, rfl, hp⟩ hs⟩
      have hnot := hs.2.2.2
      simp [hp] at hnot

def readings (a : Attempt) : List ℚ := a.start :: a.turns.flatMap fun t => [t.now, t.restart]

/-! ## The answer on the link -/

/-- The request went out in full, and `r` is read from an answer behind it. -/
def AnsweredBy (req : Request) (es : List Event) (r : RawUdsResponse) : Prop :=
  ∃ before T n between T' b rest,
    es = before ++ .send req.payload T n :: between ++ .recv T' b :: rest ∧
      req.payload.length ≤ n ∧ kind fromPayload req b = .answer ∧ r = fromPayload b

variable {fromPayload} {req : Request} {T : ℚ} {b : Bytes}

theorem receive_answer (hk : kind fromPayload req b = .answer) (ts : List Turn) (l : Locals)
    (start : ℚ) (h : .recv T b ∈ (receive fromPayload req l start ts).2) :
    (receive fromPayload req l start ts).1 = .done (.ok (fromPayload b)) := by
  have hne : b ≠ [] := (kind_answer fromPayload req b hk).1
  induction ts generalizing l start with
  | nil =>
    rw [receive, List.mem_singleton] at h
    cases h
    exact absurd rfl hne
  | cons t ts ih =>
    rw [receive_cons] at h ⊢
    by_cases hl : t.now - start > l.timeout
    · rw [if_pos hl] at h
      cases h
    rw [if_neg hl] at h ⊢
    cases ht : kind fromPayload req t.reply with
    | silence =>
      rw [ht, List.mem_singleton] at h
      cases h
      exact absurd rfl hne
    | invalid =>
      rw [ht, List.mem_singleton] at h
      cases h
      cases hk.symm.trans ht
    | foreign =>
      rw [ht] at h
      rcases List.mem_cons.mp h with hb | h
      · cases hb
        cases hk.symm.trans ht
      · exact ih _ _ h
    | pending =>
      rw [ht] at h
      rcases List.mem_cons.mp h with hb | h
      · cases hb
        cases hk.symm.trans ht
      · exact ih _ _ h
    | answer =>
      rw [ht, List.mem_singleton] at h
      cases h
      rfl

theorem loop_answer (hk : kind fromPayload req b = .answer) (as : List Attempt) (l : Locals)
    (h : .recv T b ∈ (attemptLoop fromPayload req l as).2) :
    (attemptLoop fromPayload req l as).1 = .ok (fromPayload b) := by
  induction as generalizing l with
  | nil =>
    rw [attemptLoop] at h
    split_ifs at h
    · cases h
    · cases hr : l.response <;> simp [hr] at h
  | cons a as ih =>
    by_cases hs : a.sentBytes < req.payload.length
    · rw [attemptLoop_short fromPayload req l a as hs, List.mem_singleton] at h
      cases h
    have hanswer := receive_answer (T := T) hk a.turns l a.start
    rcases hx : receive fromPayload req l a.start a.turns with ⟨exit, es⟩
    rw [hx] at hanswer
    cases exit with
    | done o =>
      rw [attemptLoop_done fromPayload req l a as o es hs hx] at h ⊢
      rw [List.mem_cons, or_iff_right Event.noConfusion] at h
      exact Exit.done.inj (hanswer h)
    | left l' =>
      rw [attemptLoop_left fromPayload req l l' a as es hs hx] at h ⊢
      rcases List.mem_append.mp h with h | h
      · rw [List.mem_cons, or_iff_right Event.noConfusion] at h
        cases hanswer h
      · exact ih l' h

theorem loop_answered (as : List Attempt) {l : Locals} (hl : l.rawResponse = [])
    {r : RawUdsResponse} {es : List Event} (hx : attemptLoop fromPayload req l as = (.ok r, es))
    (hpositive : r.positive = true) : AnsweredBy fromPayload req es r := by
  have hholds : Holds fromPayload req l := fun h => absurd hl h
  have hret := loop_returned fromPayload req as l hholds
  obtain ⟨n, es', hes, hn⟩ := loop_head fromPayload req as l r (congrArg Prod.fst hx) hl
  rw [hx] at hret hes
  obtain ⟨b, rfl, hk, hb⟩ := hret
  have hanswer : kind fromPayload req b = .answer := by
    refine hk.resolve_right fun hpending => ?_
    have hp := (kind_pending fromPayload req b hpending).2.2.2
    simp [isPending, hpositive] at hp
  have hlast : LastReply es b := by
    refine hb.resolve_right fun hheld => ?_
    exact (kind_answer fromPayload req b hanswer).1 (hheld.2.symm.trans hl)
  obtain rfl : es = _ := hes
  obtain ⟨between, T', rest, rfl⟩ := lastReply_behind hlast
  exact ⟨[], l.timeout, n, between, T', b, rest, rfl, hn, hanswer, rfl⟩

theorem answeredBy_loop {as : List Attempt} {l : Locals} {r : RawUdsResponse}
    (h : AnsweredBy fromPayload req (attemptLoop fromPayload req l as).2 r) :
    (attemptLoop fromPayload req l as).1 = .ok r := by
  obtain ⟨before, T, n, between, T', b, rest, hes, -, hk, rfl⟩ := h
  exact loop_answer hk as l (T := T') (by rw [hes]; simp)

theorem response_iff (req : Request) (attempts : ℕ) (timeout : ℚ) (history : ℕ → Attempt)
    (r : RawUdsResponse) :
    (sendAndReadResponse fromPayload req attempts timeout history).1 = .ok r ↔
      AnsweredBy fromPayload req (sendAndReadResponse fromPayload req attempts timeout history).2
        r ∧ r.positive = true := by
  have hback : ∀ r, AnsweredBy fromPayload req (attemptLoop fromPayload req ⟨timeout, [], none⟩
        ((List.range attempts).map history)).2 r →
      (attemptLoop fromPayload req ⟨timeout, [], none⟩ ((List.range attempts).map history)).1 =
        .ok r := fun _ => answeredBy_loop
  rw [sendAndReadResponse, sendAndReadRawResponse]
  rcases hx : attemptLoop fromPayload req ⟨timeout, [], none⟩
    ((List.range attempts).map history) with ⟨e | r', es⟩
  · rw [hx] at hback
    refine iff_of_false (by simp) fun h => ?_
    cases hback r h.1
  · rw [hx] at hback
    dsimp only
    by_cases hp : r'.positive = true
    · rw [if_pos hp]
      constructor
      · rintro ⟨rfl⟩
        exact ⟨loop_answered _ rfl hx hp, hp⟩
      · exact fun h => hback r h.1
    · rw [if_neg hp]
      refine iff_of_false (by simp) fun h => ?_
      cases hback r h.1
      exact hp h.2

end InVehicle.UdsSoundness
