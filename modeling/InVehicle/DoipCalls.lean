import InVehicle.DoipConnections

/-!
# Calls of the DoIP utilities

What an activation hands to its caller and what a teardown closes.
-/

set_option autoImplicit false

namespace InVehicle.DoipCalls
open InVehicle.Effect InVehicle.Dicts InVehicle.DoipMessages InVehicle.TcpSocket
  InVehicle.TextCodecs InVehicle.DoipConnections

variable {Msg : Type}

/-! ## One activation -/

section Activation

variable {key : Text}

theorem within_other {α : Type} {k : Text} (hk : k ≠ key) (v : Option (World Msg))
    (m : Tcp Msg α) : Keeps (fun s => s.tcpCommunicatorsCache.get? k = v) (within key m) := by
  refine keeps_iff.mpr fun s hs => ?_
  cases hget : s.tcpCommunicatorsCache.get? key with
  | none =>
    rw [within_missing hget]
    exact hs
  | some w =>
    rw [within_cached hget]
    exact (Dict.get?_set_ne _ hk _).trans hs

theorem getTcpCommunicator_other {k : Text} (hk : k ≠ key) (v : Option (World Msg))
    (env : GetEnv) :
    Keeps (fun s => s.tcpCommunicatorsCache.get? k = v) (getTcpCommunicator key env) := by
  have hrenew : Keeps (fun s : Utils Msg => s.tcpCommunicatorsCache.get? k = v)
      (renew key env.opening) := by
    refine keeps_iff.mpr fun s hs => ?_
    rw [renew_run]
    split
    · exact (Dict.get?_set_ne _ hk _).trans hs
    · exact hs
  refine ensures_bind (keeps_get _) fun a => ?_
  cases a.tcpCommunicatorsCache.get? key with
  | none => exact hrenew
  | some w =>
    refine ensures_ite (fun _ => ensures_pure fun _ h => h) fun _ =>
      ensures_ite (fun _ => ?_) fun _ => hrenew
    exact ensures_bind (within_other hk v _) fun _ => hrenew

def Fetched (before : Option (World Msg)) (s : Utils Msg) (key : Text) (w : World Msg) : Prop :=
  s.tcpCommunicatorsCache.get? key = some w ∧ Live w ∧ (before = some w ∨ w.log = [])

theorem renew_fetched (before : Option (World Msg)) (env : OpenEnv) {P : Utils Msg → Prop} :
    Ensures P (renew key env) (fun _ s => ∃ w, Fetched before s key w) (fun _ _ => True) := by
  intro s _
  rw [renew_run]
  by_cases h : env.bind = true ∧ env.connect = true
  · rw [if_pos h]
    exact ⟨_, Dict.get?_set_self _ _ _, ⟨s.made, env.reads, rfl⟩, .inr rfl⟩
  · rw [if_neg h]
    trivial

theorem getTcpCommunicator_fetched (before : Option (World Msg)) (env : GetEnv) :
    Ensures (fun s => s.tcpCommunicatorsCache.get? key = before) (getTcpCommunicator key env)
      (fun _ s => ∃ w, Fetched before s key w) (fun _ _ => True) := by
  refine ensures_bind (Q := fun a s => a = s ∧ s.tcpCommunicatorsCache.get? key = before)
    (fun _ h => ⟨rfl, h⟩) fun a => ?_
  cases hget : a.tcpCommunicatorsCache.get? key with
  | none => exact renew_fetched before env.opening
  | some w =>
    refine ensures_ite (fun hopen => ensures_pure ?_) fun _ => ensures_ite (fun _ => ?_) fun _ =>
      renew_fetched before env.opening
    · rintro _ ⟨rfl, rfl⟩
      exact ⟨w, hget, ((tcpIsOpen_iff env.peek w).mp hopen).1, .inl hget⟩
    · refine ensures_bind (Q := fun _ _ => True) ?_ fun _ => renew_fetched before env.opening
      intro s _
      cases hget' : s.tcpCommunicatorsCache.get? key with
      | none =>
        rw [within_missing hget']
        trivial
      | some w' =>
        rw [within_cached hget']
        cases (tcpClose env.closing w').1 <;> trivial

end Activation

theorem cacheKey_inj {source target source' target' : Text} (h : '_' ∉ source)
    (h' : '_' ∉ source') (hkey : cacheKey source' target' = cacheKey source target) :
    source' = source ∧ target' = target := by
  induction source' generalizing source with
  | nil =>
    cases source with
    | nil => exact ⟨rfl, (List.cons.inj hkey).2⟩
    | cons x source =>
      rw [← (List.cons.inj hkey).1] at h
      exact absurd List.mem_cons_self h
  | cons y source' ih =>
    cases source with
    | nil =>
      rw [(List.cons.inj hkey).1] at h'
      exact absurd List.mem_cons_self h'
    | cons x source =>
      obtain ⟨hhead, htail⟩ := List.cons.inj hkey
      obtain ⟨rfl, rfl⟩ := ih (mt (List.mem_cons_of_mem x) h) (mt (List.mem_cons_of_mem y) h') htail
      exact ⟨congrArg (· :: _) hhead, rfl⟩

/-- A response was read on the connection to the target, behind the request and on the
communicator that had been cached for the pair or is new. No call touches another pair. -/
theorem activation_answered (c : DoipClient Msg) (source target : Text) (r : Request)
    (getting : GetEnv) (env : Exchange) (s : Utils Msg) :
    (∀ m t, initiateRoutingActivationReq c source target r getting env s = (.ok (some m), t) →
      ∃ w conn log, t.tcpCommunicatorsCache.get? (cacheKey source target) = some w ∧
        Answered c r conn log m w ∧
        ((∃ old, s.tcpCommunicatorsCache.get? (cacheKey source target) = some old ∧
          old.log = log) ∨ log = [])) ∧
    ∀ source' target', '_' ∉ source → '_' ∉ source' → (source', target') ≠ (source, target) →
      (initiateRoutingActivationReq c source target r getting env s).2.tcpCommunicatorsCache.get?
          (cacheKey source' target') =
        s.tcpCommunicatorsCache.get? (cacheKey source' target') := by
  constructor
  · intro m t hrun
    obtain ⟨b, u, hget, hwithin⟩ := bind_eq_ok.mp hrun
    have hfetched := getTcpCommunicator_fetched
      (s.tcpCommunicatorsCache.get? (cacheKey source target)) getting s rfl
    rw [hget] at hfetched
    obtain ⟨w, hcached, ⟨conn, hconn⟩, hlog⟩ := hfetched
    rw [within_cached hcached] at hwithin
    have hanswer := initiateRoutingActivationReqBound_connected c r env w ⟨hconn, rfl⟩
    obtain ⟨hresult, rfl⟩ := Prod.mk.inj hwithin
    rw [show initiateRoutingActivationReqBound c r env w =
      (.ok (some m), (initiateRoutingActivationReqBound c r env w).2) from
        Prod.ext hresult rfl] at hanswer
    exact ⟨_, conn, w.log, Dict.get?_set_self _ _ _, hanswer.2 m rfl,
      hlog.imp_left fun hold => ⟨w, hold, rfl⟩⟩
  · intro source' target' hsource hsource' hne
    have hkey : cacheKey source' target' ≠ cacheKey source target := by
      intro h
      obtain ⟨rfl, rfl⟩ := cacheKey_inj hsource hsource' h
      exact hne rfl
    exact keeps_iff.mp (ensures_bind (getTcpCommunicator_other hkey _ getting) fun _ =>
      within_other hkey _ _) s rfl

/-! ## Teardown -/

def ClosedAt (s : Utils Msg) (key : Text) : Prop :=
  ∃ w, s.tcpCommunicatorsCache.get? key = some w ∧ ¬ Live w

/-- The connection of the communicator is open and cannot be shut down. -/
def JammedAt (s : Utils Msg) (key : Text) (env : CloseEnv) : Prop :=
  ∃ w, s.tcpCommunicatorsCache.get? key = some w ∧ Jammed env w

theorem within_close_run {s : Utils Msg} (hs : Inv s) {key : Text}
    (hkey : key ∈ s.tcpCommunicatorsCache.keys) (env : CloseEnv) :
    ∃ t, t.tcpCommunicatorsCache.keys = s.tcpCommunicatorsCache.keys ∧ Inv t ∧
      (∀ k, k ≠ key → t.tcpCommunicatorsCache.get? k = s.tcpCommunicatorsCache.get? k) ∧
      (¬ JammedAt s key env ∧ within key (tcpClose env) s = (.ok true, t) ∧ ClosedAt t key ∨
        JammedAt s key env ∧ within key (tcpClose env) s = (.error .osError, t) ∧
          t.tcpCommunicatorsCache.get? key = s.tcpCommunicatorsCache.get? key) := by
  obtain ⟨w, hget⟩ := (Dict.mem_keys_iff _ _).mp hkey
  obtain ⟨conn, -, phase, reads, hsocket, -⟩ := hs.attached key w hget
  have hkeeps : Keeps (Sound True) (within key (tcpClose env : Tcp Msg Bool)) :=
    within_sound fun conn => keeps_tcpClose conn env
  have hsound := keeps_iff.mp hkeeps s ⟨hs, .inr trivial⟩
  have hother := fun k (hk : k ≠ key) =>
    keeps_iff.mp (within_other hk (s.tcpCommunicatorsCache.get? k) (tcpClose env)) s rfl
  rw [within_cached hget] at hsound hother ⊢
  refine ⟨_, Dict.keys_set _ hkey _, hsound.1, hother, ?_⟩
  rcases tcpClose_run env hsocket with ⟨hfree, hrun⟩ | ⟨hjammed, hrun⟩
  · rw [hrun]
    refine .inl ⟨?_, rfl, _, Dict.get?_set_self _ _ _, ?_⟩
    · rintro ⟨w', hget', hjammed⟩
      rw [hget] at hget'
      cases hget'
      exact hfree hjammed
    · rintro ⟨conn', reads', h⟩
      cases h
  · rw [hrun]
    exact .inr ⟨⟨w, hget, hjammed⟩, rfl, (Dict.get?_set_self _ _ _).trans hget.symm⟩

/-- How far the loop over the communicators has come. -/
def ClosedUpTo (s : Utils Msg) (closed : List Text) (t : Utils Msg) : Prop :=
  t.tcpCommunicatorsCache.keys = s.tcpCommunicatorsCache.keys ∧ (∀ k ∈ closed, ClosedAt t k) ∧
    ∀ k ∉ closed, t.tcpCommunicatorsCache.get? k = s.tcpCommunicatorsCache.get? k

theorem ClosedUpTo.cons {s t u : Utils Msg} {key : Text} {closed : List Text}
    (hkeys : t.tcpCommunicatorsCache.keys = s.tcpCommunicatorsCache.keys)
    (hother : ∀ k, k ≠ key → t.tcpCommunicatorsCache.get? k = s.tcpCommunicatorsCache.get? k)
    (hclosed : ClosedAt t key) (hkey : key ∉ closed) (h : ClosedUpTo t closed u) :
    ClosedUpTo s (key :: closed) u := by
  obtain ⟨hkeys', hbefore, hrest⟩ := h
  refine ⟨hkeys'.trans hkeys, fun k hk => ?_, fun k hk => ?_⟩
  · rcases List.mem_cons.mp hk with rfl | hk
    · rw [ClosedAt, hrest k hkey]
      exact hclosed
    · exact hbefore k hk
  · rw [List.mem_cons, not_or] at hk
    exact (hrest k hk.2).trans (hother k hk.1)

theorem closeAll_run (closing : Text → CloseEnv) {keys : List Text} {s : Utils Msg} (hs : Inv s)
    (hnodup : keys.Nodup) (hkeys : ∀ k ∈ keys, k ∈ s.tcpCommunicatorsCache.keys) :
    (∃ t, closeAll closing keys s = (.ok (), t) ∧ ClosedUpTo s keys t ∧
        ∀ k ∈ keys, ¬ JammedAt s k (closing k)) ∨
      ∃ t closed key rest, keys = closed ++ key :: rest ∧
        closeAll closing keys s = (.error .osError, t) ∧ ClosedUpTo s closed t ∧
        (∀ k ∈ closed, ¬ JammedAt s k (closing k)) ∧ JammedAt s key (closing key) := by
  induction keys generalizing s with
  | nil =>
    exact .inl ⟨s, rfl, ⟨rfl, fun k hk => (by cases hk), fun _ _ => rfl⟩, fun k hk => (by cases hk)⟩
  | cons key keys ih =>
    rw [List.nodup_cons] at hnodup
    obtain ⟨t, htkeys, ht, hother, ⟨hfree, hrun, hclosed⟩ | ⟨hjammed, hrun, hsame⟩⟩ :=
      within_close_run hs (hkeys key List.mem_cons_self) (closing key)
    · have hkeys' : ∀ k ∈ keys, k ∈ t.tcpCommunicatorsCache.keys := by
        intro k hk
        rw [htkeys]
        exact hkeys k (List.mem_cons_of_mem _ hk)
      -- what is behind the key is as it was before the key was closed
      have hbehind : ∀ k ∈ keys, (JammedAt t k (closing k) ↔ JammedAt s k (closing k)) := by
        intro k hk
        have hne : k ≠ key := by
          rintro rfl
          exact hnodup.1 hk
        rw [JammedAt, JammedAt, hother k hne]
      rw [closeAll, bind_ok hrun]
      rcases ih ht hnodup.2 hkeys' with
        ⟨u, hu, hupto, hrest⟩ | ⟨u, closed, key', rest, rfl, hu, hupto, hbefore, hstop⟩
      · refine .inl ⟨u, hu, .cons htkeys hother hclosed hnodup.1 hupto, ?_⟩
        refine List.forall_mem_cons.mpr ⟨hfree, fun k hk => ?_⟩
        exact (hbehind k hk).not.mp (hrest k hk)
      · refine .inr ⟨u, key :: closed, key', rest, rfl, hu,
          .cons htkeys hother hclosed ?_ hupto, ?_, ?_⟩
        · exact fun hmem => hnodup.1 (List.mem_append_left _ hmem)
        · refine List.forall_mem_cons.mpr ⟨hfree, fun k hk => ?_⟩
          exact (hbehind k (List.mem_append_left _ hk)).not.mp (hbefore k hk)
        · exact (hbehind key' (List.mem_append_right _ List.mem_cons_self)).mp hstop
    · refine .inr ⟨t, [], key, keys, rfl, ?_, ⟨htkeys, fun k hk => (by cases hk), fun k _ => ?_⟩,
        fun k hk => (by cases hk), hjammed⟩
      · rw [closeAll, bind_error hrun]
      · by_cases hk : k = key
        · rw [hk, hsame]
        · exact hother k hk

/-- After every history: a teardown closes every cached connection, in the order of the
cache, up to the first that is open and cannot be shut down. It raises at once where the
raw socket was never opened. -/
theorem teardown_closes (c : DoipClient Msg) (calls : List Call) (closing : Text → CloseEnv) :
    ((run c calls).outSocket = false ∧ ∃ t, teardown closing (run c calls) =
        (.error .attributeError, t) ∧ ClosedUpTo (run c calls) [] t) ∨
      (∃ t, teardown closing (run c calls) = (.ok true, t) ∧
        ClosedUpTo (run c calls) (run c calls).tcpCommunicatorsCache.keys t ∧
        ∀ k ∈ (run c calls).tcpCommunicatorsCache.keys, ¬ JammedAt (run c calls) k (closing k)) ∨
      ∃ t closed key rest, (run c calls).tcpCommunicatorsCache.keys = closed ++ key :: rest ∧
        teardown closing (run c calls) = (.error .osError, t) ∧
        ClosedUpTo (run c calls) closed t ∧
        (∀ k ∈ closed, ¬ JammedAt (run c calls) k (closing k)) ∧
        JammedAt (run c calls) key (closing key) := by
  have hinv := (run_sound c calls).1
  generalize run c calls = s at hinv ⊢
  have hclosed : Inv { s with inSocket := false } := hinv.of_eq rfl le_rfl
  cases hout : s.outSocket with
  | false =>
    have hraw : rawClose s = (.error .attributeError, { s with inSocket := false }) := by
      simp [rawClose, hout]
    exact .inl ⟨rfl, _, bind_error hraw, rfl, fun k hk => (by cases hk), fun _ _ => rfl⟩
  | true =>
    have hraw : rawClose s = (.ok true, { s with inSocket := false }) := by
      simp [rawClose, hout]
    have hget : (Prog.get : Doip Msg (Utils Msg)) { s with inSocket := false } =
        (.ok { s with inSocket := false }, { s with inSocket := false }) := rfl
    refine .inr ?_
    rw [teardown, bind_ok hraw, bind_ok hget]
    rcases closeAll_run closing hclosed s.tcpCommunicatorsCache.nodup (fun _ h => h) with
      ⟨t, ht, hupto, hfree⟩ | ⟨t, closed, key, rest, hkeys, ht, hupto, hbefore, hjammed⟩
    · exact .inl ⟨t, bind_ok ht, hupto, hfree⟩
    · exact .inr ⟨t, closed, key, rest, hkeys, bind_error ht, hupto, hbefore, hjammed⟩

end InVehicle.DoipCalls
