import InVehicle.Loops
import InVehicle.UdsSoundness

/-!
# The UDS exchange on answers that never run out

The receive loop of `_send_and_read_raw_response` asks the clock and the link as often
as it likes. Replies that are pending or of another service can keep it going for ever;
a call that ends is one of the calls on finitely many turns.
-/

set_option autoImplicit false

namespace InVehicle.UdsEndless
open InVehicle.Loops (Pass Returns after_succ_next_iff after_done_mono returns_unique
  returns_iff_last)
open InVehicle.UdsExchange InVehicle.UdsSoundness

/-- What one attempt meets, however long it goes on. -/
structure Transmission where
  sentBytes : ℕ
  start : ℚ
  turns : ℕ → Turn

abbrev Waiting := Locals × ℚ × List Event

variable (fromPayload : Bytes → RawUdsResponse)

/-- One pass of the `while True` loop. -/
def receivePass (req : Request) (t : Turn) : Waiting → Pass Waiting (Exit × List Event)
  | (l, start, es) =>
    if t.now - start > l.timeout then .done (.left l, es)
    else if t.reply = [] then
      .done (.left { l with rawResponse := [] }, es ++ [.recv l.timeout []])
    else
      let response := fromPayload t.reply
      let es := es ++ [.recv l.timeout t.reply]
      if !response.valid then
        .done (.done (.error (.invalidResponse response.invalidReason)), es)
      else if response.responseId ≠ req.responseId then
        .next ({ l with rawResponse := [], response := some response }, start, es)
      else if isPending response then
        .next (⟨defaultUdsPendingTimeout, t.reply, some response⟩, t.restart, es)
      else .done (.done (.ok response), es)

/-- The loop, if it is over after `fuel` passes. -/
def receiveFor (fuel : ℕ) (req : Request) (l : Locals) (start : ℚ) (turns : ℕ → Turn) :
    Option (Exit × List Event) :=
  match Loops.after (receivePass fromPayload req) turns (l, start, []) fuel with
  | .next _ => none
  | .done r => some r

/-- The `for` loop over the attempts and the lines after it, if no attempt takes more
than `fuel` passes. -/
def attemptLoopFor (fuel : ℕ) (req : Request) :
    Locals → List Transmission → Option (Outcome × List Event)
  | l, [] => some (attemptLoop fromPayload req l [])
  | l, a :: as =>
    if a.sentBytes < req.payload.length then
      some (.error (.runtimeError "Failed to send request"),
        [.send req.payload l.timeout a.sentBytes])
    else
      match receiveFor fromPayload fuel req l a.start a.turns with
      | none => none
      | some (.done o, es) => some (o, .send req.payload l.timeout a.sentBytes :: es)
      | some (.left l', es) => (attemptLoopFor fuel req l' as).map
          (after (.send req.payload l.timeout a.sentBytes :: es))

def sendAndReadRawResponseFor (fuel : ℕ) (req : Request) (attempts : ℕ) (timeout : ℚ)
    (history : ℕ → Transmission) : Option (Outcome × List Event) :=
  attemptLoopFor fromPayload fuel req ⟨timeout, [], none⟩ ((List.range attempts).map history)

/-! ## The replies that keep the loop going -/

/-- The timeout and the start in effect, and whether the last payload was a pending one. -/
structure Deadline where
  timeout : ℚ
  start : ℚ
  held : Bool

/-- The deadline in front of a pass, if all replies before were pending or foreign. -/
def deadline (req : Request) (d : Deadline) (turns : ℕ → Turn) : ℕ → Deadline
  | 0 => d
  | n+1 =>
    if kind fromPayload req (turns n).reply = .pending then
      ⟨defaultUdsPendingTimeout, (turns n).restart, true⟩
    else { deadline req d turns n with held := false }

def Late (d : Deadline) (t : Turn) : Prop := t.now - d.start > d.timeout

/-- The n-th reply comes in time, and is pending or foreign. -/
def GoesOn (req : Request) (d : Deadline) (turns : ℕ → Turn) (n : ℕ) : Prop :=
  ¬ Late (deadline fromPayload req d turns n) (turns n) ∧
    (kind fromPayload req (turns n).reply = .foreign ∨
      kind fromPayload req (turns n).reply = .pending)

def Endless (req : Request) (d : Deadline) (turns : ℕ → Turn) : Prop :=
  ∀ n, GoesOn fromPayload req d turns n

/-- The loop is left without a result in its n-th pass, with this timeout and with a
pending reply held or not: the deadline is over, or there is silence. -/
def LeavesAt (req : Request) (d : Deadline) (turns : ℕ → Turn) (n : ℕ) (timeout : ℚ)
    (held : Bool) : Prop :=
  (∀ i < n, GoesOn fromPayload req d turns i) ∧
    timeout = (deadline fromPayload req d turns n).timeout ∧
    (Late (deadline fromPayload req d turns n) (turns n) ∧
        held = (deadline fromPayload req d turns n).held ∨
      ¬ Late (deadline fromPayload req d turns n) (turns n) ∧
        kind fromPayload req (turns n).reply = .silence ∧ held = false)

/-- All attempts are sent in full and left without a result. -/
inductive FallsThrough (req : Request) : ℚ → Bool → List Transmission → Bool → Prop
  | nil (timeout : ℚ) (p : Bool) : FallsThrough req timeout p [] p
  | cons {timeout timeout' : ℚ} {p p' q : Bool} {n : ℕ} {a : Transmission}
      {as : List Transmission} (hs : ¬ a.sentBytes < req.payload.length)
      (hl : LeavesAt fromPayload req ⟨timeout, a.start, p⟩ a.turns n timeout' p')
      (rest : FallsThrough req timeout' p' as q) : FallsThrough req timeout p (a :: as) q

/-- An attempt is sent in full and its replies keep the loop going for ever; all before it
are sent in full and left without a result. -/
inductive Hangs (req : Request) : ℚ → Bool → List Transmission → Prop
  | here {timeout : ℚ} {p : Bool} {a : Transmission} {as : List Transmission}
      (hs : ¬ a.sentBytes < req.payload.length)
      (h : Endless fromPayload req ⟨timeout, a.start, p⟩ a.turns) : Hangs req timeout p (a :: as)
  | later {timeout timeout' : ℚ} {p p' : Bool} {n : ℕ} {a : Transmission}
      {as : List Transmission} (hs : ¬ a.sentBytes < req.payload.length)
      (hl : LeavesAt fromPayload req ⟨timeout, a.start, p⟩ a.turns n timeout' p')
      (rest : Hangs req timeout' p' as) : Hangs req timeout p (a :: as)

/-! ## One pass -/

section Passes
variable {fromPayload} {req : Request} {t : Turn} {l l' : Locals} {start start' : ℚ}
  {es es' : List Event}

theorem receivePass_kind (req : Request) (t : Turn) (l : Locals) (start : ℚ)
    (es : List Event) : receivePass fromPayload req t (l, start, es) =
      if t.now - start > l.timeout then .done (.left l, es)
      else match kind fromPayload req t.reply with
        | .silence => .done (.left { l with rawResponse := [] }, es ++ [.recv l.timeout []])
        | .invalid => .done (.done (.error (.invalidResponse
            (fromPayload t.reply).invalidReason)), es ++ [.recv l.timeout t.reply])
        | .foreign => .next ({ l with rawResponse := [], response := some (fromPayload t.reply) },
            start, es ++ [.recv l.timeout t.reply])
        | .pending => .next (⟨defaultUdsPendingTimeout, t.reply, some (fromPayload t.reply)⟩,
            t.restart, es ++ [.recv l.timeout t.reply])
        | .answer => .done (.done (.ok (fromPayload t.reply)),
            es ++ [.recv l.timeout t.reply]) := by
  simp only [receivePass, kind]
  split_ifs <;> rfl

variable (es) in
theorem receivePass_next (h : ¬ t.now - start > l.timeout)
    (hk : kind fromPayload req t.reply = .foreign ∨ kind fromPayload req t.reply = .pending) :
    ∃ l' start' es', receivePass fromPayload req t (l, start, es) = .next (l', start', es') ∧
      Deadline.mk l'.timeout start' l'.held =
        if kind fromPayload req t.reply = .pending then
          ⟨defaultUdsPendingTimeout, t.restart, true⟩
        else ⟨l.timeout, start, false⟩ := by
  rw [receivePass_kind, if_neg h]
  rcases hk with hk | hk
  · simp only [hk]
    exact ⟨_, _, _, rfl, rfl⟩
  · simp only [hk, if_true]
    refine ⟨_, _, _, rfl, ?_⟩
    rw [held_of_reply fromPayload req _ t.reply _ hk]

theorem receivePass_next_goes {s : Waiting}
    (h : receivePass fromPayload req t (l, start, es) = .next s) :
    ¬ t.now - start > l.timeout ∧
      (kind fromPayload req t.reply = .foreign ∨ kind fromPayload req t.reply = .pending) := by
  rw [receivePass_kind] at h
  by_cases hl : t.now - start > l.timeout
  · rw [if_pos hl] at h
    cases h
  rw [if_neg hl] at h
  refine ⟨hl, ?_⟩
  cases hk : kind fromPayload req t.reply with
  | silence => simp [hk] at h
  | invalid => simp [hk] at h
  | foreign => exact .inl rfl
  | pending => exact .inr rfl
  | answer => simp [hk] at h

theorem receivePass_left (h : receivePass fromPayload req t (l, start, es) = .done (.left l', es')) :
    l'.timeout = l.timeout ∧ (t.now - start > l.timeout ∧ l'.held = l.held ∨
      ¬ t.now - start > l.timeout ∧ kind fromPayload req t.reply = .silence ∧
        l'.held = false) := by
  rw [receivePass_kind] at h
  by_cases hl : t.now - start > l.timeout
  · rw [if_pos hl] at h
    cases h
    exact ⟨rfl, .inl ⟨hl, rfl⟩⟩
  rw [if_neg hl] at h
  cases hk : kind fromPayload req t.reply with
  | silence =>
    simp only [hk] at h
    cases h
    exact ⟨rfl, .inr ⟨hl, rfl, rfl⟩⟩
  | invalid => simp [hk] at h
  | foreign => simp [hk] at h
  | pending => simp [hk] at h
  | answer => simp [hk] at h

variable (es) in
theorem receivePass_leaves {held : Bool} (h : t.now - start > l.timeout ∧ held = l.held ∨
      ¬ t.now - start > l.timeout ∧ kind fromPayload req t.reply = .silence ∧ held = false) :
    ∃ l' es', receivePass fromPayload req t (l, start, es) = .done (.left l', es') ∧
      l'.timeout = l.timeout ∧ l'.held = held := by
  rw [receivePass_kind]
  rcases h with ⟨hl, rfl⟩ | ⟨hl, hk, rfl⟩
  · rw [if_pos hl]
    exact ⟨_, _, rfl, rfl, rfl⟩
  · simp only [if_neg hl, hk]
    exact ⟨_, _, rfl, rfl, rfl⟩

end Passes

/-! ## The loop of one attempt -/

section Attempts
variable {fromPayload} {req : Request} {turns : ℕ → Turn} {l : Locals} {start : ℚ}

theorem running_of_goesOn {n : ℕ}
    (h : ∀ i < n, GoesOn fromPayload req ⟨l.timeout, start, l.held⟩ turns i) :
    ∃ l' start' es, Loops.after (receivePass fromPayload req) turns (l, start, []) n =
        .next (l', start', es) ∧
      deadline fromPayload req ⟨l.timeout, start, l.held⟩ turns n =
        ⟨l'.timeout, start', l'.held⟩ := by
  induction n with
  | zero => exact ⟨l, start, [], rfl, rfl⟩
  | succ n ih =>
    rw [Nat.forall_lt_succ_right] at h
    obtain ⟨hbefore, hlate, hk⟩ := h
    obtain ⟨l', start', es, hrun, hdeadline⟩ := ih hbefore
    rw [hdeadline] at hlate
    obtain ⟨l'', start'', es', hpass, hnext⟩ := receivePass_next es hlate hk
    refine ⟨l'', start'', es', after_succ_next_iff.mpr ⟨_, hrun, hpass⟩, ?_⟩
    rw [deadline, hdeadline, hnext]

theorem goesOn_of_running {n : ℕ} {l' : Locals} {start' : ℚ} {es : List Event}
    (h : Loops.after (receivePass fromPayload req) turns (l, start, []) n =
      .next (l', start', es)) :
    (∀ i < n, GoesOn fromPayload req ⟨l.timeout, start, l.held⟩ turns i) ∧
      deadline fromPayload req ⟨l.timeout, start, l.held⟩ turns n =
        ⟨l'.timeout, start', l'.held⟩ := by
  induction n generalizing l' start' es with
  | zero =>
    cases h
    exact ⟨fun i hi => absurd hi (Nat.not_lt_zero i), rfl⟩
  | succ n ih =>
    obtain ⟨⟨l₀, start₀, es₀⟩, hrun, hpass⟩ := after_succ_next_iff.mp h
    obtain ⟨hbefore, hdeadline⟩ := ih hrun
    obtain ⟨hlate, hk⟩ := receivePass_next_goes hpass
    obtain ⟨l₁, start₁, es₁, hpass₁, hnext⟩ := receivePass_next es₀ hlate hk
    cases hpass₁.symm.trans hpass
    refine ⟨Nat.forall_lt_succ_right.mpr ⟨hbefore, ?_, hk⟩, ?_⟩
    · rw [hdeadline]
      exact hlate
    · rw [deadline, hdeadline, hnext]

theorem returns_left_iff (timeout : ℚ) (held : Bool) :
    (∃ l' es, Returns (receivePass fromPayload req) turns (l, start, []) (.left l', es) ∧
        l'.timeout = timeout ∧ l'.held = held) ↔
      ∃ n, LeavesAt fromPayload req ⟨l.timeout, start, l.held⟩ turns n timeout held := by
  constructor
  · rintro ⟨l', es, hreturns, rfl, rfl⟩
    obtain ⟨n, ⟨l₀, start₀, es₀⟩, hrun, hlast⟩ := returns_iff_last.mp hreturns
    obtain ⟨hbefore, hdeadline⟩ := goesOn_of_running hrun
    obtain ⟨htimeout, hleft⟩ := receivePass_left hlast
    refine ⟨n, hbefore, ?_⟩
    rw [hdeadline]
    exact ⟨htimeout, hleft⟩
  · rintro ⟨n, hbefore, rfl, hleft⟩
    obtain ⟨l₀, start₀, es₀, hrun, hdeadline⟩ := running_of_goesOn hbefore
    rw [hdeadline] at hleft ⊢
    obtain ⟨l', es, hlast, htimeout, hheld⟩ := receivePass_leaves es₀ hleft
    exact ⟨l', es, returns_iff_last.mpr ⟨n, _, hrun, hlast⟩, htimeout, hheld⟩

theorem receiveFor_ends
    (h : ¬ Endless fromPayload req ⟨l.timeout, start, l.held⟩ turns) :
    ∃ fuel r, receiveFor fromPayload fuel req l start turns = some r := by
  classical
  rw [Endless, not_forall] at h
  have hbefore : ∀ i < Nat.find h, GoesOn fromPayload req ⟨l.timeout, start, l.held⟩ turns i :=
    fun i hi => not_not.mp (Nat.find_min h hi)
  obtain ⟨l', start', es, hrun, -⟩ := running_of_goesOn hbefore
  refine ⟨Nat.find h + 1, ?_⟩
  cases hlast : Loops.after (receivePass fromPayload req) turns (l, start, []) (Nat.find h + 1) with
  | next s =>
    obtain ⟨l₁, start₁, es₁⟩ := s
    exact absurd ((goesOn_of_running hlast).1 _ (Nat.lt_succ_self _)) (Nat.find_spec h)
  | done r => exact ⟨r, by rw [receiveFor, hlast]⟩

theorem receiveFor_endless (h : Endless fromPayload req ⟨l.timeout, start, l.held⟩ turns)
    (fuel : ℕ) : receiveFor fromPayload fuel req l start turns = none := by
  obtain ⟨l', start', es, hrun, -⟩ := running_of_goesOn fun i (_ : i < fuel) => h i
  rw [receiveFor, hrun]

theorem receiveFor_returns {fuel : ℕ} {r : Exit × List Event}
    (h : receiveFor fromPayload fuel req l start turns = some r) :
    Returns (receivePass fromPayload req) turns (l, start, []) r := by
  rw [receiveFor] at h
  cases hrun : Loops.after (receivePass fromPayload req) turns (l, start, []) fuel with
  | next s => simp [hrun] at h
  | done r' =>
    simp only [hrun, Option.some.injEq] at h
    exact ⟨fuel, h ▸ hrun⟩

theorem receiveFor_mono {fuel fuel' : ℕ} {r : Exit × List Event} (hle : fuel ≤ fuel')
    (h : receiveFor fromPayload fuel req l start turns = some r) :
    receiveFor fromPayload fuel' req l start turns = some r := by
  rw [receiveFor] at h ⊢
  cases hrun : Loops.after (receivePass fromPayload req) turns (l, start, []) fuel with
  | next s => simp [hrun] at h
  | done r' =>
    rw [after_done_mono hrun hle]
    simpa only [hrun] using h

theorem leavesAt_iff {fuel : ℕ} {l' : Locals} {es : List Event}
    (h : receiveFor fromPayload fuel req l start turns = some (.left l', es)) (timeout : ℚ)
    (held : Bool) :
    (∃ n, LeavesAt fromPayload req ⟨l.timeout, start, l.held⟩ turns n timeout held) ↔
      l'.timeout = timeout ∧ l'.held = held := by
  have hreturns := receiveFor_returns h
  rw [← returns_left_iff]
  constructor
  · rintro ⟨l₀, es₀, hreturns₀, htimeout, hheld⟩
    cases returns_unique hreturns hreturns₀
    exact ⟨htimeout, hheld⟩
  · exact fun h => ⟨l', es, hreturns, h⟩

theorem not_leavesAt {fuel : ℕ} {o : Outcome} {es : List Event}
    (h : receiveFor fromPayload fuel req l start turns = some (.done o, es)) {n : ℕ}
    {timeout : ℚ} {held : Bool} :
    ¬ LeavesAt fromPayload req ⟨l.timeout, start, l.held⟩ turns n timeout held := by
  intro hleaves
  obtain ⟨l', es', hreturns, -⟩ := (returns_left_iff timeout held).mpr ⟨n, hleaves⟩
  cases returns_unique (receiveFor_returns h) hreturns

/-! ## The same loop on finitely many turns -/

/-- The turns that a loop of so many passes asks for. -/
def cut (fuel : ℕ) (a : Transmission) : Attempt :=
  ⟨a.sentBytes, a.start, (List.range fuel).map a.turns⟩

variable (fromPayload req turns l start) in
theorem receive_after (n : ℕ) (ts : List Turn) :
    match Loops.after (receivePass fromPayload req) turns (l, start, []) n with
    | .next (l', start', es) =>
      receive fromPayload req l start ((List.range n).map turns ++ ts) =
        after es (receive fromPayload req l' start' ts)
    | .done r => receive fromPayload req l start ((List.range n).map turns ++ ts) = r := by
  induction n generalizing ts with
  | zero => rfl
  | succ n ih =>
    have hbefore := ih (turns n :: ts)
    rw [List.range_succ, List.map_append, List.append_assoc, List.map_singleton,
      List.singleton_append, Loops.after]
    cases hrun : Loops.after (receivePass fromPayload req) turns (l, start, []) n with
    | done r =>
      rw [hrun] at hbefore
      exact hbefore
    | next s =>
      obtain ⟨l', start', es⟩ := s
      rw [hrun] at hbefore
      simp only at hbefore
      rw [Loops.resume, receivePass_kind, hbefore, receive_cons]
      by_cases hl : (turns n).now - start' > l'.timeout
      · rw [if_pos hl, if_pos hl]
        simp [after]
      rw [if_neg hl, if_neg hl]
      cases hk : kind fromPayload req (turns n).reply <;> simp [after]

theorem receiveFor_eq {fuel : ℕ} {r : Exit × List Event}
    (h : receiveFor fromPayload fuel req l start turns = some r) :
    receive fromPayload req l start ((List.range fuel).map turns) = r := by
  have hafter := receive_after fromPayload req turns l start fuel []
  rw [receiveFor] at h
  cases hrun : Loops.after (receivePass fromPayload req) turns (l, start, []) fuel with
  | next s => simp [hrun] at h
  | done r' =>
    simp only [hrun, Option.some.injEq] at h
    rw [hrun, List.append_nil] at hafter
    exact hafter.trans h

end Attempts

/-! ## The call -/

section Calls
variable {fromPayload} {req : Request} {l : Locals} {as : List Transmission}

theorem attemptLoopFor_mono {fuel fuel' : ℕ} {x : Outcome × List Event} (hle : fuel ≤ fuel')
    (h : attemptLoopFor fromPayload fuel req l as = some x) :
    attemptLoopFor fromPayload fuel' req l as = some x := by
  induction as generalizing l x with
  | nil => exact h
  | cons a as ih =>
    rw [attemptLoopFor] at h ⊢
    by_cases hs : a.sentBytes < req.payload.length
    · rwa [if_pos hs] at h ⊢
    rw [if_neg hs] at h ⊢
    cases hr : receiveFor fromPayload fuel req l a.start a.turns with
    | none => simp [hr] at h
    | some r =>
      rw [receiveFor_mono hle hr]
      rw [hr] at h
      obtain ⟨exit, es⟩ := r
      cases exit with
      | done o => exact h
      | left l' =>
        obtain ⟨y, hy, rfl⟩ := Option.map_eq_some_iff.mp h
        exact Option.map_eq_some_iff.mpr ⟨y, ih hy, rfl⟩

theorem attemptLoopFor_eq {fuel : ℕ} {x : Outcome × List Event}
    (h : attemptLoopFor fromPayload fuel req l as = some x) :
    attemptLoop fromPayload req l (as.map (cut fuel)) = x := by
  induction as generalizing l x with
  | nil => exact Option.some.inj h
  | cons a as ih =>
    rw [attemptLoopFor] at h
    rw [List.map_cons]
    by_cases hs : a.sentBytes < req.payload.length
    · rw [if_pos hs, Option.some.injEq] at h
      rw [attemptLoop_short fromPayload req l (cut fuel a) _ hs]
      exact h
    rw [if_neg hs] at h
    cases hr : receiveFor fromPayload fuel req l a.start a.turns with
    | none => simp [hr] at h
    | some r =>
      rw [hr] at h
      obtain ⟨exit, es⟩ := r
      have hreceive := receiveFor_eq hr
      cases exit with
      | done o =>
        rw [attemptLoop_done fromPayload req l (cut fuel a) _ o es hs hreceive]
        exact Option.some.inj h
      | left l' =>
        obtain ⟨y, hy, rfl⟩ := Option.map_eq_some_iff.mp h
        rw [attemptLoop_left fromPayload req l l' (cut fuel a) _ es hs hreceive, ih hy]
        rfl

theorem fallsThrough_cut_iff {fuel : ℕ} {x : Outcome × List Event} {held : Bool}
    (h : attemptLoopFor fromPayload fuel req l as = some x) :
    UdsExchange.FallsThrough fromPayload req l.timeout l.held (as.map (cut fuel)) held ↔
      FallsThrough fromPayload req l.timeout l.held as held := by
  induction as generalizing l x with
  | nil =>
    constructor
    · rintro ⟨⟩
      exact .nil _ _
    · rintro ⟨⟩
      exact .nil _ _
  | cons a as ih =>
    rw [attemptLoopFor] at h
    rw [List.map_cons]
    by_cases hs : a.sentBytes < req.payload.length
    · constructor
      · rintro (_ | ⟨hn, -, -⟩)
        exact absurd hs hn
      · rintro (_ | ⟨hn, -, -⟩)
        exact absurd hs hn
    rw [if_neg hs] at h
    cases hr : receiveFor fromPayload fuel req l a.start a.turns with
    | none => simp [hr] at h
    | some r =>
      rw [hr] at h
      obtain ⟨exit, es⟩ := r
      have hreceive := receiveFor_eq hr
      cases exit with
      | done o =>
        constructor
        · rintro (_ | ⟨-, hl, -⟩)
          obtain ⟨l', es', hleft, -⟩ := receive_of_left fromPayload req _ l a.start _ _ hl
          cases hreceive.symm.trans hleft
        · rintro (_ | ⟨-, hl, -⟩)
          exact absurd hl (not_leavesAt hr)
      | left l' =>
        obtain ⟨y, hy, -⟩ := Option.map_eq_some_iff.mp h
        have hrest := ih hy
        constructor
        · rintro (_ | ⟨-, hl, hfalls⟩)
          obtain ⟨l₀, es₀, hleft, rfl, rfl⟩ := receive_of_left fromPayload req _ l a.start _ _ hl
          cases hreceive.symm.trans hleft
          obtain ⟨n, hleaves⟩ := (leavesAt_iff hr _ _).mpr ⟨rfl, rfl⟩
          exact .cons hs hleaves (hrest.mp hfalls)
        · rintro (_ | ⟨-, hl, hfalls⟩)
          obtain ⟨rfl, rfl⟩ := (leavesAt_iff hr _ _).mp ⟨_, hl⟩
          exact .cons hs (left_of_receive fromPayload req _ l l' a.start es hreceive)
            (hrest.mpr hfalls)

theorem attemptLoopFor_hangs (fuel : ℕ) (h : Hangs fromPayload req l.timeout l.held as) :
    attemptLoopFor fromPayload fuel req l as = none := by
  induction as generalizing l with
  | nil => cases h
  | cons a as ih =>
    rw [attemptLoopFor]
    cases h with
    | here hs hendless => rw [if_neg hs, receiveFor_endless hendless]
    | later hs hl hrest =>
      rw [if_neg hs]
      cases hr : receiveFor fromPayload fuel req l a.start a.turns with
      | none => rfl
      | some r =>
        obtain ⟨exit, es⟩ := r
        cases exit with
        | done o => exact absurd hl (not_leavesAt hr)
        | left l' =>
          obtain ⟨rfl, rfl⟩ := (leavesAt_iff hr _ _).mp ⟨_, hl⟩
          simp only [ih hrest, Option.map_none]

theorem attemptLoopFor_ends (h : ¬ Hangs fromPayload req l.timeout l.held as) :
    ∃ fuel x, attemptLoopFor fromPayload fuel req l as = some x := by
  induction as generalizing l with
  | nil => exact ⟨0, _, rfl⟩
  | cons a as ih =>
    by_cases hs : a.sentBytes < req.payload.length
    · exact ⟨0, _, by rw [attemptLoopFor, if_pos hs]⟩
    obtain ⟨fuel, ⟨exit, es⟩, hr⟩ := receiveFor_ends fun hendless => h (.here hs hendless)
    cases exit with
    | done o => exact ⟨fuel, _, by rw [attemptLoopFor, if_neg hs, hr]⟩
    | left l' =>
      obtain ⟨n, hl⟩ := (leavesAt_iff hr _ _).mpr ⟨rfl, rfl⟩
      obtain ⟨fuel', x, hx⟩ := ih fun hrest => h (.later hs hl hrest)
      refine ⟨max fuel fuel', after (.send req.payload l.timeout a.sentBytes :: es) x, ?_⟩
      rw [attemptLoopFor, if_neg hs, receiveFor_mono (Nat.le_max_left _ _) hr]
      exact Option.map_eq_some_iff.mpr
        ⟨x, attemptLoopFor_mono (Nat.le_max_right fuel fuel') hx, rfl⟩

end Calls

/-- The call ends, and what it returns or raises is sound. -/
def EndsSoundly (req : Request) (attempts : ℕ) (timeout : ℚ) (history : ℕ → Transmission) :
    Prop :=
  ∃ fuel x, sendAndReadRawResponseFor fromPayload fuel req attempts timeout history = some x ∧
    Sound fromPayload req x

/-- A call hangs where replies keep an attempt going for ever, and one that ends is sound
unless it falls through while a pending reply is held. -/
theorem endsSoundly_iff (req : Request) (attempts : ℕ) (timeout : ℚ)
    (history : ℕ → Transmission) :
    EndsSoundly fromPayload req attempts timeout history ↔
      ¬ Hangs fromPayload req timeout false ((List.range attempts).map history) ∧
      ¬ FallsThrough fromPayload req timeout false ((List.range attempts).map history) true := by
  have hcut (fuel : ℕ) : ((List.range attempts).map history).map (cut fuel) =
      (List.range attempts).map fun k => cut fuel (history k) := by
    rw [List.map_map]
    rfl
  have hsound {fuel : ℕ} {x : Outcome × List Event}
      (hx : sendAndReadRawResponseFor fromPayload fuel req attempts timeout history = some x) :
      Sound fromPayload req x ↔
        ¬ FallsThrough fromPayload req timeout false ((List.range attempts).map history) true := by
    have hrun := attemptLoopFor_eq hx
    rw [hcut] at hrun
    have hfalls : UdsExchange.FallsThrough fromPayload req timeout false
        ((List.range attempts).map fun k => cut fuel (history k)) true ↔
        FallsThrough fromPayload req timeout false ((List.range attempts).map history) true := by
      rw [← hcut]
      exact fallsThrough_cut_iff hx
    rw [← hrun, ← hfalls]
    exact exchange_sound_iff fromPayload req attempts timeout fun k => cut fuel (history k)
  constructor
  · rintro ⟨fuel, x, hx, h⟩
    refine ⟨fun hhangs => ?_, (hsound hx).mp h⟩
    have hnone : sendAndReadRawResponseFor fromPayload fuel req attempts timeout history = none :=
      attemptLoopFor_hangs fuel hhangs
    rw [hnone] at hx
    cases hx
  · rintro ⟨hends, hfalls⟩
    obtain ⟨fuel, x, hx⟩ := attemptLoopFor_ends (l := ⟨timeout, [], none⟩) hends
    exact ⟨fuel, x, hx, (hsound hx).mpr hfalls⟩

/-- The readings of the clock in an attempt do not decrease. -/
def Monotone (a : Transmission) : Prop :=
  a.start ≤ (a.turns 0).now ∧ ∀ n, (a.turns n).now ≤ (a.turns n).restart ∧
    (a.turns n).restart ≤ (a.turns (n + 1)).now

def readVin : Request := ⟨[0x22, 0xF1, 0x86], 0x62⟩

/-- A pending reply at once, and then the clock stands at 61. -/
def pause : Transmission :=
  ⟨3, 0, fun n => if n = 0 then ⟨0, [0x7F, 0x22, 0x78], 0⟩ else ⟨61, [], 61⟩⟩

/-- More than the pending timeout passes between two readings: the pending reply is handed
out as the response of the call. -/
theorem pending_handed_out_after_pause :
    Monotone pause ∧ ¬ EndsSoundly isoFromPayload readVin 1 2 fun _ => pause := by
  constructor
  · refine ⟨by decide, fun n => ?_⟩
    cases n with
    | zero => decide
    | succ n => exact ⟨le_rfl, le_rfl⟩
  rintro ⟨fuel, x, hx, hsound⟩
  have hrun : sendAndReadRawResponseFor isoFromPayload 2 readVin 1 2 (fun _ => pause) =
      some (.ok (isoFromPayload [0x7F, 0x22, 0x78]),
        [.send [0x22, 0xF1, 0x86] 2 3, .recv 2 [0x7F, 0x22, 0x78]]) := by
    decide +kernel
  have hmax := attemptLoopFor_mono (Nat.le_max_left fuel 2) hx
  rw [attemptLoopFor_mono (Nat.le_max_right fuel 2) hrun] at hmax
  cases hmax
  exact absurd hsound.2.2.2 (by decide)

end InVehicle.UdsEndless
