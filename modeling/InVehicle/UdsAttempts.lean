import InVehicle.UdsSoundness

/-!
# Several attempts against several single attempts

The repeated call is compared with a loop of calls that make one attempt each.
Both see the same answers. They part at the first attempt before the last that
is left without a result and carries something over: the pending timeout, or a
pending reply that is still held.
-/

set_option autoImplicit false

namespace InVehicle.UdsAttempts
open InVehicle.UdsExchange InVehicle.UdsSoundness

variable (fromPayload : Bytes → RawUdsResponse)

/-- The same call with `attempts = 1` on each attempt in turn, until one does
not raise `NoResponse`. -/
def singleAttempts (req : Request) (timeout : ℚ) : List Attempt → Outcome × List Event
  | [] => (.error .noResponse, [])
  | a :: as =>
    match sendAndReadRawResponse fromPayload req 1 timeout (fun _ => a) with
    | (.error .noResponse, es) => after es (singleAttempts req timeout as)
    | x => x

/-- No attempt that another one follows is left without a result under a
changed timeout or with a pending reply still held. -/
def Independent (req : Request) (timeout : ℚ) : List Attempt → Prop
  | [] => True
  | [_] => True
  | a :: as => ¬ a.sentBytes < req.payload.length →
      ∀ timeout' q, Left fromPayload req timeout a.start false a.turns timeout' q →
        timeout' = timeout ∧ q = false ∧ Independent req timeout as

theorem single_eq (req : Request) (timeout : ℚ) (a : Attempt) :
    sendAndReadRawResponse fromPayload req 1 timeout (fun _ => a) =
      attemptLoop fromPayload req ⟨timeout, [], none⟩ [a] := rfl

/-- Equal but for a `response` that is never read again. -/
def Agree (l l' : Locals) : Prop :=
  l.timeout = l'.timeout ∧ l.rawResponse = l'.rawResponse ∧
    (l.rawResponse ≠ [] → l.response = l'.response)

def ExitAgree : Exit × List Event → Exit × List Event → Prop
  | (.done o, es), y => y = (.done o, es)
  | (.left l, es), y => ∃ l', y = (.left l', es) ∧ Agree l l'

theorem exitAgree_after (es : List Event) (x y : Exit × List Event) (h : ExitAgree x y) :
    ExitAgree (after es x) (after es y) := by
  match x, h with
  | (.done o, es'), h =>
    simp only [ExitAgree] at h
    rw [h]
    rfl
  | (.left l, es'), ⟨l', hy, ha⟩ =>
    rw [hy]
    exact ⟨l', rfl, ha⟩

theorem exitAgree_refl (x : Exit × List Event) : ExitAgree x x := by
  match x with
  | (.done o, es) => rfl
  | (.left l, es) => exact ⟨l, rfl, rfl, rfl, fun _ => rfl⟩

theorem receive_agree (req : Request) (ts : List Turn) (l l' : Locals) (start : ℚ)
    (h : Agree l l') :
    ExitAgree (receive fromPayload req l start ts) (receive fromPayload req l' start ts) := by
  obtain ⟨ht, hraw, hr⟩ := h
  cases ts with
  | nil =>
    simp only [receive, ht]
    exact ⟨_, rfl, rfl, rfl, fun h => absurd rfl h⟩
  | cons t ts =>
    rw [receive_cons, receive_cons, ht]
    by_cases hn : t.now - start > l'.timeout
    · rw [if_pos hn, if_pos hn]
      exact ⟨l', rfl, ht, hraw, hr⟩
    rw [if_neg hn, if_neg hn]
    cases kind fromPayload req t.reply with
    | silence => exact ⟨_, rfl, rfl, rfl, fun h => absurd rfl h⟩
    | invalid => rfl
    | foreign =>
      obtain ⟨T, raw, r⟩ := l
      obtain ⟨T', raw', r'⟩ := l'
      cases ht
      exact exitAgree_after _ _ _ (exitAgree_refl _)
    | pending => exact exitAgree_after _ _ _ (exitAgree_refl _)
    | answer => rfl

theorem loop_agree (req : Request) (as : List Attempt) (l l' : Locals) (h : Agree l l') :
    attemptLoop fromPayload req l as = attemptLoop fromPayload req l' as := by
  induction as generalizing l l' with
  | nil =>
    unfold attemptLoop
    rw [← h.2.1]
    by_cases hr : l.rawResponse = []
    · rw [if_pos hr, if_pos hr]
    · rw [if_neg hr, if_neg hr, h.2.2 hr]
  | cons a as ih =>
    have hx := receive_agree fromPayload req a.turns l l' a.start h
    unfold attemptLoop
    rw [h.1]
    congr 1
    by_cases hs : a.sentBytes < req.payload.length
    · rw [if_pos hs, if_pos hs]
    rw [if_neg hs, if_neg hs]
    rcases hy : receive fromPayload req l a.start a.turns with ⟨exit, es⟩
    rw [hy] at hx
    cases exit with
    | done o => rw [show receive fromPayload req l' a.start a.turns = (.done o, es) from hx]
    | left m =>
      obtain ⟨m', hy', hm⟩ := hx
      rw [hy']
      exact congrArg (after es) (ih m m' hm)

theorem after_inj {α : Type} (es : List Event) (x y : α × List Event) :
    after es x = after es y ↔ x = y := by
  simp [after, Prod.ext_iff]

theorem singleAttempts_left (req : Request) (timeout : ℚ) (a : Attempt) (as : List Attempt)
    (l : Locals) (es : List Event) (hs : ¬ a.sentBytes < req.payload.length)
    (hl : Holds fromPayload req l)
    (hx : receive fromPayload req ⟨timeout, [], none⟩ a.start a.turns = (.left l, es)) :
    singleAttempts fromPayload req timeout (a :: as) =
      if l.rawResponse = [] then
        after (.send req.payload timeout a.sentBytes :: es)
          (singleAttempts fromPayload req timeout as)
      else (.ok (fromPayload l.rawResponse), .send req.payload timeout a.sentBytes :: es) := by
  rw [singleAttempts, single_eq, attemptLoop_left fromPayload req _ l a [] es hs hx]
  by_cases hr : l.rawResponse = []
  · simp [attemptLoop, hr, after]
  · simp [attemptLoop, hr, after, (hl hr).2]

theorem singleAttempts_done (req : Request) (timeout : ℚ) (a : Attempt) (as : List Attempt)
    (o : Outcome) (es : List Event)
    (hx : attemptLoop fromPayload req ⟨timeout, [], none⟩ [a] = (o, es))
    (ho : o ≠ .error .noResponse) :
    singleAttempts fromPayload req timeout (a :: as) = (o, es) := by
  rw [singleAttempts, single_eq, hx]
  match o, ho with
  | .ok r, _ => rfl
  | .error (.runtimeError _), _ => rfl
  | .error (.invalidResponse _), _ => rfl
  | .error (.negativeResponse _ _), _ => rfl
  | .error .unboundLocalError, _ => rfl

theorem independent_left (req : Request) (timeout : ℚ) (a b : Attempt) (as : List Attempt)
    (l : Locals) (es : List Event) (hs : ¬ a.sentBytes < req.payload.length)
    (hx : receive fromPayload req ⟨timeout, [], none⟩ a.start a.turns = (.left l, es)) :
    Independent fromPayload req timeout (a :: b :: as) ↔
      l.timeout = timeout ∧ l.held = false ∧ Independent fromPayload req timeout (b :: as) := by
  have hleft := left_of_receive fromPayload req a.turns _ l a.start es hx
  constructor
  · intro h
    exact h hs _ _ hleft
  · intro h _ T q hq
    obtain ⟨l', es', hx', rfl, rfl⟩ :=
      receive_of_left fromPayload req a.turns ⟨timeout, [], none⟩ a.start T q hq
    rw [hx] at hx'
    cases hx'
    exact h

theorem independent_done (req : Request) (timeout : ℚ) (a : Attempt) (as : List Attempt)
    (o : Outcome) (es : List Event)
    (hx : receive fromPayload req ⟨timeout, [], none⟩ a.start a.turns = (.done o, es)) :
    Independent fromPayload req timeout (a :: as) := by
  cases as with
  | nil => trivial
  | cons b as =>
    intro _ T q hq
    obtain ⟨l', es', hx', -, -⟩ :=
      receive_of_left fromPayload req a.turns ⟨timeout, [], none⟩ a.start T q hq
    rw [hx] at hx'
    cases hx'

theorem loop_cons_head (req : Request) (l : Locals) (a : Attempt) (as : List Attempt) :
    (attemptLoop fromPayload req l (a :: as)).2.head? =
      some (.send req.payload l.timeout a.sentBytes) := rfl

theorem singleAttempts_head (req : Request) (timeout : ℚ) (a : Attempt) (as : List Attempt) :
    (singleAttempts fromPayload req timeout (a :: as)).2.head? =
      some (.send req.payload timeout a.sentBytes) := by
  have hh := loop_cons_head fromPayload req ⟨timeout, [], none⟩ a []
  rw [singleAttempts, single_eq]
  match hx : attemptLoop fromPayload req ⟨timeout, [], none⟩ [a] with
  | (.error .noResponse, []) => simp [hx] at hh
  | (.error .noResponse, e :: es) => simpa [hx, after] using hh
  | (.ok r, es) => simpa [hx] using hh
  | (.error (.runtimeError _), es) => simpa [hx] using hh
  | (.error (.invalidResponse _), es) => simpa [hx] using hh
  | (.error (.negativeResponse _ _), es) => simpa [hx] using hh
  | (.error .unboundLocalError, es) => simpa [hx] using hh

theorem loop_eq_single_short (req : Request) (timeout : ℚ) (a : Attempt) (as : List Attempt)
    (hs : a.sentBytes < req.payload.length) :
    attemptLoop fromPayload req ⟨timeout, [], none⟩ (a :: as) =
      singleAttempts fromPayload req timeout (a :: as) ↔
        Independent fromPayload req timeout (a :: as) := by
  have hshort := fun as => attemptLoop_short fromPayload req ⟨timeout, [], none⟩ a as hs
  rw [hshort, singleAttempts_done fromPayload req timeout a as _ _ (hshort []) (by simp)]
  refine ⟨fun _ => ?_, fun _ => rfl⟩
  cases as with
  | nil => trivial
  | cons b as => exact fun h => absurd hs h

theorem loop_eq_single_done (req : Request) (timeout : ℚ) (a : Attempt) (as : List Attempt)
    (o : Outcome) (es : List Event) (hs : ¬ a.sentBytes < req.payload.length)
    (hx : receive fromPayload req ⟨timeout, [], none⟩ a.start a.turns = (.done o, es)) :
    attemptLoop fromPayload req ⟨timeout, [], none⟩ (a :: as) =
      singleAttempts fromPayload req timeout (a :: as) ↔
        Independent fromPayload req timeout (a :: as) := by
  have hr := receive_received fromPayload req a.turns _ a.start
    (holds_empty fromPayload req timeout none)
  rw [hx] at hr
  have ho : o ≠ .error .noResponse := by
    rintro rfl
    obtain ⟨_, he⟩ := hr
    cases he
  have hdone := fun as => attemptLoop_done fromPayload req ⟨timeout, [], none⟩ a as o es hs hx
  rw [hdone, singleAttempts_done fromPayload req timeout a as _ _ (hdone []) ho]
  exact ⟨fun _ => independent_done fromPayload req timeout a as o es hx, fun _ => rfl⟩

theorem loop_eq_single_left (req : Request) (timeout : ℚ) (a b : Attempt) (as : List Attempt)
    (l : Locals) (es : List Event) (hs : ¬ a.sentBytes < req.payload.length)
    (hx : receive fromPayload req ⟨timeout, [], none⟩ a.start a.turns = (.left l, es))
    (ih : attemptLoop fromPayload req ⟨timeout, [], none⟩ (b :: as) =
      singleAttempts fromPayload req timeout (b :: as) ↔
        Independent fromPayload req timeout (b :: as)) :
    attemptLoop fromPayload req ⟨timeout, [], none⟩ (a :: b :: as) =
      singleAttempts fromPayload req timeout (a :: b :: as) ↔
        Independent fromPayload req timeout (a :: b :: as) := by
  have hr := receive_received fromPayload req a.turns _ a.start
    (holds_empty fromPayload req timeout none)
  rw [hx] at hr
  rw [attemptLoop_left fromPayload req _ l a (b :: as) es hs hx,
    singleAttempts_left fromPayload req timeout a (b :: as) l es hs hr.1 hx,
    independent_left fromPayload req timeout a b as l es hs hx]
  by_cases hraw : l.rawResponse = []
  · rw [if_pos hraw, after_inj, ← ih]
    by_cases ht : l.timeout = timeout
    · have hh : l.held = false := by simp [Locals.held, hraw]
      rw [loop_agree fromPayload req (b :: as) l ⟨timeout, [], none⟩
        ⟨ht, hraw, fun h => absurd hraw h⟩]
      simp [ht, hh]
    · refine ⟨fun he => ?_, fun h => absurd h.1 ht⟩
      have hhead := loop_cons_head fromPayload req l b as
      rw [he, singleAttempts_head] at hhead
      simp [Ne.symm ht] at hhead
  · have hh : l.held = true := by simp [Locals.held, hraw]
    rw [if_neg hraw, hh]
    refine ⟨fun he => ?_, fun h => by simp at h⟩
    have hlen := congrArg (fun x => x.2.length) he
    simp [after, attemptLoop] at hlen

theorem loop_eq_single_last (req : Request) (timeout : ℚ) (a : Attempt) (l : Locals)
    (es : List Event) (hs : ¬ a.sentBytes < req.payload.length)
    (hx : receive fromPayload req ⟨timeout, [], none⟩ a.start a.turns = (.left l, es)) :
    attemptLoop fromPayload req ⟨timeout, [], none⟩ [a] =
      singleAttempts fromPayload req timeout [a] ↔ Independent fromPayload req timeout [a] := by
  have hr := receive_received fromPayload req a.turns _ a.start
    (holds_empty fromPayload req timeout none)
  rw [hx] at hr
  rw [attemptLoop_left fromPayload req _ l a [] es hs hx,
    singleAttempts_left fromPayload req timeout a [] l es hs hr.1 hx]
  by_cases hraw : l.rawResponse = []
  · simp [attemptLoop, hraw, singleAttempts, Independent]
  · simp [attemptLoop, hraw, (hr.1 hraw).2, after, Independent]

theorem loop_eq_single_iff (req : Request) (timeout : ℚ) (as : List Attempt) :
    attemptLoop fromPayload req ⟨timeout, [], none⟩ as = singleAttempts fromPayload req timeout as ↔
      Independent fromPayload req timeout as := by
  induction as with
  | nil => simp [attemptLoop, singleAttempts, Independent]
  | cons a as ih =>
    by_cases hs : a.sentBytes < req.payload.length
    · exact loop_eq_single_short fromPayload req timeout a as hs
    rcases hx : receive fromPayload req ⟨timeout, [], none⟩ a.start a.turns with ⟨exit, es⟩
    cases exit with
    | done o => exact loop_eq_single_done fromPayload req timeout a as o es hs hx
    | left l =>
      cases as with
      | nil => exact loop_eq_single_last fromPayload req timeout a l es hs hx
      | cons b as => exact loop_eq_single_left fromPayload req timeout a b as l es hs hx ih

/-- Repeated and single attempts make the same calls with the same result
exactly when no attempt before the last one leaves anything behind. -/
theorem attempts_eq_single_iff (req : Request) (attempts : ℕ) (timeout : ℚ)
    (history : ℕ → Attempt) :
    sendAndReadRawResponse fromPayload req attempts timeout history =
        singleAttempts fromPayload req timeout ((List.range attempts).map history) ↔
      Independent fromPayload req timeout ((List.range attempts).map history) :=
  loop_eq_single_iff fromPayload req timeout _

/-- A pending reply followed by silence: the second transmission is made with
the pending timeout instead of the one that was asked for. -/
theorem pending_timeout_leaks :
    let req : Request := ⟨[0x3E, 0x00], 0x7E⟩
    let a : Attempt := ⟨2, 0, [⟨0, [0x7F, 0x3E, 0x78], 0⟩, ⟨1, [], 1⟩]⟩
    (readings a).Pairwise (· ≤ ·) ∧
      sendAndReadRawResponse isoFromPayload req 2 2 (fun _ => a) ≠
        singleAttempts isoFromPayload req 2 ((List.range 2).map fun _ => a) := by
  intro req a
  exact ⟨by decide, by decide +kernel⟩

end InVehicle.UdsAttempts
