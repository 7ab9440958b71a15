import InVehicle.Runs
import InVehicle.UdsSoundness

/-!
# UDS calls over a first-in first-out link

Transmissions and answers travel in two queues. The ECU answers the oldest
transmission it has, whenever it likes and with whatever bytes; an answer may
stay in flight through any number of empty receives. Each event of the tester
carries the number of the transmission it belongs to, which the code never sees.
-/

set_option autoImplicit false

namespace InVehicle.UdsLink
open InVehicle.Runs InVehicle.UdsExchange InVehicle.UdsSoundness

structure Link where
  toEcu : List (ℕ × Bytes)
  toTester : List (ℕ × Bytes)
  sent : ℕ
  taken : ℕ

def Link.start : Link := ⟨[], [], 0, 0⟩

/-- Answers that transmissions made so far still have to bring. -/
def Link.outstanding (L : Link) : ℕ := L.toTester.length + L.toEcu.length

abbrev Tagged := Event × Option ℕ

/-- A step of the link. A frame that is not accepted whole is never
transmitted, and an empty payload is how the tester sees silence. -/
inductive Step : Link → Option Tagged → Link → Prop
  | ecu (k : ℕ) (p : Bytes) (es ts : List (ℕ × Bytes)) (s t : ℕ) (b : Bytes) (hb : b ≠ []) :
      Step ⟨(k, p) :: es, ts, s, t⟩ none ⟨es, ts ++ [(k, b)], s, t⟩
  | send (L : Link) (p : Bytes) (T : ℚ) (n : ℕ) (h : p.length ≤ n) :
      Step L (some (.send p T n, some L.sent))
        { L with toEcu := L.toEcu ++ [(L.sent, p)], sent := L.sent + 1 }
  | short (L : Link) (p : Bytes) (T : ℚ) (n : ℕ) (h : n < p.length) :
      Step L (some (.send p T n, none)) L
  | silence (L : Link) (T : ℚ) : Step L (some (.recv T [], none)) L
  | recv (k : ℕ) (b : Bytes) (es ts : List (ℕ × Bytes)) (s t : ℕ) (T : ℚ) :
      Step ⟨es, (k, b) :: ts, s, t⟩ (some (.recv T b, some k)) ⟨es, ts, s, t + 1⟩

/-- The frames in flight are the transmissions not yet answered to the tester,
oldest first, and no answer is empty. -/
structure Ordered (L : Link) : Prop where
  tags : (L.toTester ++ L.toEcu).map Prod.fst = List.range' L.taken (L.sent - L.taken)
  taken_le : L.taken ≤ L.sent
  nonempty : ∀ x ∈ L.toTester, x.2 ≠ []

theorem ordered_start : Ordered Link.start := ⟨rfl, le_rfl, by simp [Link.start]⟩

theorem outstanding_eq (L : Link) (h : Ordered L) : L.taken + L.outstanding = L.sent := by
  have hl := congrArg List.length h.tags
  have ht := h.taken_le
  simp only [List.length_map, List.length_append, List.length_range'] at hl
  unfold Link.outstanding
  omega

theorem ordered_head (k : ℕ) (b : Bytes) (es ts : List (ℕ × Bytes)) (s t : ℕ)
    (h : Ordered ⟨es, (k, b) :: ts, s, t⟩) :
    k = t ∧ t < s ∧ (ts ++ es).map Prod.fst = List.range' (t + 1) (s - (t + 1)) := by
  have htags := h.tags
  simp only [List.cons_append, List.map_cons] at htags
  cases hn : s - t with
  | zero => simp [hn] at htags
  | succ n =>
    rw [hn, List.range'_succ] at htags
    obtain ⟨hk, hrest⟩ := List.cons.inj htags
    exact ⟨hk, by omega, by rw [hrest, show s - (t + 1) = n by omega]⟩

theorem ordered_step (L : Link) (e : Option Tagged) (L' : Link) (h : Ordered L)
    (hs : Step L e L') : Ordered L' := by
  cases hs with
  | ecu k p es ts s t b hb =>
    refine ⟨by simpa using h.tags, h.taken_le, ?_⟩
    intro x hx
    rcases List.mem_append.mp hx with hx | hx
    · exact h.nonempty x hx
    · simpa [List.mem_singleton.mp hx] using hb
  | send p T n hn =>
    refine ⟨?_, Nat.le_succ_of_le h.taken_le, h.nonempty⟩
    have ht := h.taken_le
    have hcat := List.range'_1_concat (s := L.taken) (n := L.sent - L.taken)
    rw [← List.append_assoc, List.map_append, h.tags, Nat.succ_sub ht, hcat]
    simp [Nat.add_sub_cancel' ht]
  | short p T n hn => exact h
  | silence T => exact h
  | recv k b es ts s t T =>
    obtain ⟨-, hlt, htags⟩ := ordered_head k b es ts s t h
    exact ⟨htags, hlt, fun x hx => h.nonempty x (by simp [hx])⟩

theorem run_ordered {L L' : Link} {tr : List Tagged} (h : Run Step L tr L') (hL : Ordered L) :
    Ordered L' :=
  run_invariant Ordered ordered_step h hL

def answers : Option Tagged → ℕ
  | some (.recv _ b, _) => if b = [] then 0 else 1
  | _ => 0

theorem answers_sum (tr : List Tagged) :
    (tr.map fun e => answers (some e)).sum = (replies (tr.map Prod.fst)).length := by
  induction tr with
  | nil => rfl
  | cons e tr ih =>
    obtain ⟨e, k⟩ := e
    rw [List.map_cons, List.sum_cons, ih, List.map_cons,
      show e :: tr.map Prod.fst = [e] ++ tr.map Prod.fst from rfl, replies_append,
      List.length_append]
    congr 1
    cases e with
    | send p T n => rfl
    | recv T b => by_cases hb : b = [] <;> simp [answers, replies, hb]

theorem run_taken {L L' : Link} {tr : List Tagged} (h : Run Step L tr L') (hL : Ordered L) :
    L'.taken = L.taken + (replies (tr.map Prod.fst)).length := by
  rw [← answers_sum]
  apply run_count Link.taken answers Ordered ordered_step rfl _ h hL
  intro M l M' hM hs
  cases hs with
  | ecu k p es ts s t b hb => rfl
  | send p T n hn => rfl
  | short p T n hn => rfl
  | silence T => rfl
  | recv k b es ts s t T =>
    have hb := hM.nonempty (k, b) (by simp)
    simp only at hb
    simp [answers, hb]

/-- The transmissions of a run carry the numbers that it adds to `sent`. -/
theorem run_sends {L L' : Link} {tr : List Tagged} (h : Run Step L tr L') (k : ℕ) :
    L.sent ≤ L'.sent ∧
      ((∃ p T n, (Event.send p T n, some k) ∈ tr) ↔ L.sent ≤ k ∧ k < L'.sent) := by
  induction h with
  | nil L =>
    refine ⟨le_rfl, by simp, fun h => ?_⟩
    omega
  | internal hs _ ih =>
    cases hs with
    | ecu => exact ih
  | @event L M L' e es hs rest ih =>
    cases hs with
    | send _ p T n hn =>
      simp only at ih
      refine ⟨by omega, ?_⟩
      constructor
      · rintro ⟨p', T', n', hm⟩
        rcases List.mem_cons.mp hm with he | hm
        · cases he
          omega
        · have hk := ih.2.mp ⟨p', T', n', hm⟩
          omega
      · rintro ⟨hk, hk'⟩
        by_cases heq : k = L.sent
        · subst heq
          exact ⟨p, T, n, by simp⟩
        · obtain ⟨p', T', n', hm⟩ := ih.2.mpr ⟨by omega, hk'⟩
          exact ⟨p', T', n', List.mem_cons_of_mem _ hm⟩
    | short => simpa using ih
    | silence => simpa using ih
    | recv => simpa using ih

/-- A UDS call: the request, the attributes of the caller and the answers that
the data link layer and the clock give it. -/
structure Call where
  req : Request
  attempts : ℕ
  timeout : ℚ
  history : ℕ → Attempt

variable (fromPayload : Bytes → RawUdsResponse)

def Call.outcome (c : Call) : Outcome :=
  (sendAndReadRawResponse fromPayload c.req c.attempts c.timeout c.history).1

def Call.events (c : Call) : List Event :=
  (sendAndReadRawResponse fromPayload c.req c.attempts c.timeout c.history).2

/-- The response is the ECU's answer number `k`, the last one that the call
took; `pre` are the events of the call before it. -/
def AnswerOf (tr : List Tagged) (r : RawUdsResponse) (pre : List Tagged) (k : ℕ) : Prop :=
  ∃ T b post, tr = pre ++ (.recv T b, some k) :: post ∧ b ≠ [] ∧ r = fromPayload b ∧
    replies (post.map Prod.fst) = []

/-- The response answers a transmission that the events `tr` contain. -/
def OwnAnswer (tr : List Tagged) (r : RawUdsResponse) : Prop :=
  ∃ pre k, AnswerOf fromPayload tr r pre k ∧ ∃ p T n, (Event.send p T n, some k) ∈ pre

theorem call_lastReply (c : Call) (r : RawUdsResponse) (h : c.outcome fromPayload = .ok r) :
    ∃ b, b ≠ [] ∧ r = fromPayload b ∧ r.responseId = c.req.responseId ∧
      LastReply (c.events fromPayload) b := by
  have hret := loop_returned fromPayload c.req ((List.range c.attempts).map c.history) _
    (holds_empty fromPayload c.req c.timeout none)
  have hx : attemptLoop fromPayload c.req ⟨c.timeout, [], none⟩
      ((List.range c.attempts).map c.history) = (.ok r, c.events fromPayload) :=
    Prod.ext h rfl
  rw [hx] at hret
  obtain ⟨b, rfl, hk, hb⟩ := hret
  have hid : b ≠ [] ∧ (fromPayload b).responseId = c.req.responseId := by
    rcases hk with hk | hk
    · obtain ⟨hne, -, hid, -⟩ := kind_answer fromPayload c.req b hk
      exact ⟨hne, hid⟩
    · obtain ⟨hne, -, hid, -⟩ := kind_pending fromPayload c.req b hk
      exact ⟨hne, hid⟩
  refine ⟨b, hid.1, rfl, hid.2, ?_⟩
  rcases hb with hb | ⟨-, hb⟩
  · exact hb
  · exact absurd hb.symm hid.1

/-- An answer is matched with its transmission by position alone. -/
theorem run_answer {L L' : Link} {pre post : List Tagged} {T : ℚ} {b : Bytes} {o : Option ℕ}
    (h : Run Step L (pre ++ (.recv T b, o) :: post) L') (hL : Ordered L) (hb : b ≠ []) :
    ∃ M k, Run Step L pre M ∧ o = some k ∧ k < M.sent ∧
      k = L.taken + (replies (pre.map Prod.fst)).length := by
  obtain ⟨M, M', hpre, hs, -⟩ := run_at h
  have htaken := run_taken hpre hL
  have hM := run_ordered hpre hL
  cases hs with
  | silence => exact absurd rfl hb
  | recv k b es ts s t T =>
    obtain ⟨hk, hlt, -⟩ := ordered_head k b es ts s t hM
    subst hk
    exact ⟨_, k, hpre, rfl, hlt, htaken⟩

theorem tagged_split (es fs : List Event) (tr : List Tagged) (h : tr.map Prod.fst = es ++ fs) :
    ∃ tr₁ tr₂, tr = tr₁ ++ tr₂ ∧ tr₁.map Prod.fst = es ∧ tr₂.map Prod.fst = fs := by
  obtain ⟨tr₁, tr₂, he, h₁, h₂⟩ := List.map_eq_append_iff.mp h
  exact ⟨tr₁, tr₂, he, h₁, h₂⟩

theorem lastReply_tagged (tr : List Tagged) (es : List Event) (b : Bytes)
    (h : tr.map Prod.fst = es) (hb : LastReply es b) :
    ∃ pre T o post, tr = pre ++ (.recv T b, o) :: post ∧ replies (post.map Prod.fst) = [] := by
  obtain ⟨before, T, rest, he, hrest⟩ := hb
  obtain ⟨pre, tr', rfl, -, h'⟩ := tagged_split before _ tr (h.trans he)
  obtain ⟨⟨e, o⟩, post, rfl, he', hpost⟩ := List.map_eq_cons_iff.mp h'
  simp only at he'
  subst he'
  exact ⟨pre, T, o, post, rfl, by rw [hpost]; exact hrest⟩

/-- In a session of successive calls, a returned response is the ECU's answer
to an earlier transmission of the session. It is one of the same call exactly
when that call took at least as many answers before it as were outstanding at
the start of the call. -/
theorem call_answer (before : List Call) (c : Call) (rest : List Call) (tr : List Tagged)
    (L : Link) (r : RawUdsResponse) (hrun : Run Step Link.start tr L)
    (htr : tr.map Prod.fst = (before ++ c :: rest).flatMap (Call.events fromPayload))
    (h : c.outcome fromPayload = .ok r) :
    ∃ tr₁ tr₂ tr₃ L₁, tr = tr₁ ++ (tr₂ ++ tr₃) ∧
      tr₁.map Prod.fst = before.flatMap (Call.events fromPayload) ∧
      tr₂.map Prod.fst = c.events fromPayload ∧ Run Step Link.start tr₁ L₁ ∧
      r.responseId = c.req.responseId ∧
      ∃ pre k, AnswerOf fromPayload tr₂ r pre k ∧
        (∃ p T n, (Event.send p T n, some k) ∈ tr₁ ++ pre) ∧
        ((∃ p T n, (Event.send p T n, some k) ∈ pre) ↔
          L₁.outstanding ≤ (replies (pre.map Prod.fst)).length) := by
  rw [List.flatMap_append, List.flatMap_cons] at htr
  obtain ⟨tr₁, tr', rfl, h₁, h'⟩ := tagged_split _ _ tr htr
  obtain ⟨tr₂, tr₃, rfl, h₂, -⟩ := tagged_split _ _ tr' h'
  obtain ⟨L₁, hrun₁, hrun'⟩ := run_split tr₁ _ hrun
  have hL₁ := run_ordered hrun₁ ordered_start
  obtain ⟨b, hne, hr, hid, hlast⟩ := call_lastReply fromPayload c r h
  obtain ⟨pre, T, o, post, rfl, hpost⟩ := lastReply_tagged tr₂ _ b h₂ hlast
  rw [List.append_assoc, List.cons_append] at hrun'
  obtain ⟨M, k, hpre, rfl, hlt, hk⟩ := run_answer hrun' hL₁ hne
  have hown := (run_sends hpre k).2
  have hfirst := (run_sends (run_append hrun₁ hpre) k).2
  have hout := outstanding_eq L₁ hL₁
  refine ⟨tr₁, _, tr₃, L₁, rfl, h₁, h₂, hrun₁, hid, pre, k, ⟨T, b, post, rfl, hne, hr, hpost⟩,
    hfirst.mpr ⟨Nat.zero_le k, hlt⟩, ?_⟩
  rw [hown]
  omega

theorem call_answer_single :
    let c : Call := ⟨⟨[0x3E, 0x00], 0x7E⟩, 1, 2, fun _ => ⟨2, 0, [⟨0, [0x7E, 0x00], 0⟩]⟩⟩
    let tr : List Tagged := [(.send [0x3E, 0x00] 2 2, some 0), (.recv 2 [0x7E, 0x00], some 0)]
    ∃ tr₁ tr₂ tr₃ L₁, tr = tr₁ ++ (tr₂ ++ tr₃) ∧
      tr₁.map Prod.fst = [].flatMap (Call.events isoFromPayload) ∧
      tr₂.map Prod.fst = c.events isoFromPayload ∧ Run Step Link.start tr₁ L₁ ∧
      (isoFromPayload [0x7E, 0x00]).responseId = c.req.responseId ∧
      ∃ pre k, AnswerOf isoFromPayload tr₂ (isoFromPayload [0x7E, 0x00]) pre k ∧
        (∃ p T n, (Event.send p T n, some k) ∈ tr₁ ++ pre) ∧
        ((∃ p T n, (Event.send p T n, some k) ∈ pre) ↔
          L₁.outstanding ≤ (replies (pre.map Prod.fst)).length) := by
  intro c tr
  apply call_answer isoFromPayload [] c [] tr ⟨[], [], 1, 1⟩
  · exact .event (.send _ _ _ _ (by decide)) (.internal (.ecu 0 _ _ _ _ _ _ (by decide))
      (.event (.recv 0 _ _ _ _ _ _) (.nil _)))
  · decide +kernel
  · decide +kernel

/-- A late answer to a call that ended in `NoResponse` is returned by the next
call of the same service. -/
theorem late_answer_returned :
    let c₁ : Call := ⟨⟨[0x22, 0xF1, 0x86], 0x62⟩, 1, 2, fun _ => ⟨3, 0, [⟨0, [], 0⟩]⟩⟩
    let c₂ : Call := ⟨⟨[0x22, 0xF1, 0x90], 0x62⟩, 1, 2,
      fun _ => ⟨3, 3, [⟨3, [0x62, 0xF1, 0x86, 0x01], 3⟩]⟩⟩
    let tr₁ : List Tagged := [(.send [0x22, 0xF1, 0x86] 2 3, some 0), (.recv 2 [], none)]
    let tr₂ : List Tagged := [(.send [0x22, 0xF1, 0x90] 2 3, some 1),
      (.recv 2 [0x62, 0xF1, 0x86, 0x01], some 0)]
    Run Step Link.start (tr₁ ++ tr₂) ⟨[(1, [0x22, 0xF1, 0x90])], [], 2, 1⟩ ∧
      (tr₁ ++ tr₂).map Prod.fst = [c₁, c₂].flatMap (Call.events isoFromPayload) ∧
      tr₂.map Prod.fst = c₂.events isoFromPayload ∧
      c₁.outcome isoFromPayload = .error .noResponse ∧
      c₂.outcome isoFromPayload = .ok (isoFromPayload [0x62, 0xF1, 0x86, 0x01]) ∧
      ¬ OwnAnswer isoFromPayload tr₂ (isoFromPayload [0x62, 0xF1, 0x86, 0x01]) := by
  intro c₁ c₂ tr₁ tr₂
  refine ⟨?_, by decide +kernel, by decide +kernel, by decide +kernel, by decide +kernel, ?_⟩
  · exact .event (.send _ _ _ _ (by decide)) (.event (.silence _ _)
      (.event (.send _ _ _ _ (by decide)) (.internal (.ecu 0 _ _ _ _ _ _ (by decide))
        (.event (.recv 0 _ _ _ _ _ _) (.nil _)))))
  · rintro ⟨pre, k, ⟨T, b, post, he, -, -, -⟩, p, T', n, hm⟩
    match pre, he with
    | [], he => simp at hm
    | [e], he =>
      simp only [tr₂, List.cons_append, List.nil_append, List.cons.injEq, Prod.mk.injEq] at he
      obtain ⟨rfl, ⟨-, hk⟩, -⟩ := he
      simp only [List.mem_singleton, Prod.mk.injEq] at hm
      rw [← hk] at hm
      simp at hm
    | e :: e' :: pre, he => simp [tr₂] at he

end InVehicle.UdsLink
