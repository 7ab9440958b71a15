import InVehicle.Effect
import InVehicle.Histories
import Mathlib.Data.Rat.Defs

/-!
# Configuring CAN interfaces

`ConfigurationManager._configure_can` and the loop of `configure_actions` over CAN
actions. The kernel is reached through netlink: its answers to the calls of one
action come with the action, and the calls are recorded with their arguments.
-/

set_option autoImplicit false

namespace InVehicle.CanConfiguration
open InVehicle.Effect InVehicle.Histories

inductive InterfaceState where
  | up
  | down
  | unknown
  deriving DecidableEq, Repr

structure CanFdOptions where
  dbitrate : ℤ
  deriving DecidableEq, Repr

structure CanConfigurationAction where
  channel : String
  state : InterfaceState
  bitrate : ℤ
  samplePoint : ℚ
  ccLen8Dlc : Bool
  fd : Option CanFdOptions
  deriving DecidableEq, Repr

/-- The dictionary `_can_ctrlmode_options`, with `true` for `'on'`. -/
structure CtrlMode where
  ccLen8Dlc : Bool
  fd : Bool
  deriving DecidableEq, Repr

/-- The netlink calls of `_configure_can`. -/
inductive LinkCall where
  | lookup (ifname : String)
  | get (index : ℕ)
  | setState (index : ℕ) (state : String)
  | setCan (index : ℕ) (bitrate : ℤ) (samplePoint : ℚ) (ctrlmode : CtrlMode)
      (dataBitrate : Option ℤ)
  deriving DecidableEq, Repr

inductive ConfigError where
  | netlinkError
  | indexError
  deriving DecidableEq, Repr

/-- What the kernel answers while one action is handled: the interfaces it lists,
the indices it finds for the channel, the `state` of the links it returns, and
whether the calls that set something are refused. `none` is a `NetlinkError`. -/
structure Kernel where
  interfaces : List String
  indices : Option (List ℕ)
  links : Option (List (Option String))
  downRefused : Bool
  canRefused : Bool
  upRefused : Bool
  deriving DecidableEq, Repr

structure Request where
  action : CanConfigurationAction
  kernel : Kernel
  deriving DecidableEq, Repr

structure Manager where
  ctrlmodeOptions : CtrlMode
  log : List LinkCall
  deriving DecidableEq, Repr

def newManager : Manager := ⟨⟨false, false⟩, []⟩

abbrev Config := Prog Manager ConfigError

def record (c : LinkCall) : Config Unit := Prog.modify fun m => { m with log := m.log ++ [c] }

/-- A call whose answer is a list of which the first element is taken. -/
def first {α : Type} (c : LinkCall) (answer : Option (List α)) : Config α := do
  record c
  match answer with
  | none => Prog.raise .netlinkError
  | some [] => Prog.raise .indexError
  | some (a :: _) => return a

def set (c : LinkCall) (refused : Bool) : Config Unit := do
  record c
  if refused then Prog.raise .netlinkError

def update (f : CtrlMode → CtrlMode) : Config Unit :=
  Prog.modify fun m => { m with ctrlmodeOptions := f m.ctrlmodeOptions }

/-- The parameters of the interface. A refusal is logged. -/
def setCan (idx : ℕ) (canConfig : CanConfigurationAction) (refused : Bool) : Config Unit := do
  let m ← Prog.get
  Prog.attempt
    (set (.setCan idx canConfig.bitrate canConfig.samplePoint m.ctrlmodeOptions
      (canConfig.fd.map CanFdOptions.dbitrate)) refused)
    fun
      | .netlinkError => return ()
      | e => Prog.raise e

def configureLink (idx : ℕ) (r : Request) : Config Unit := do
  let canConfig := r.action
  if canConfig.ccLen8Dlc then update fun o => { o with ccLen8Dlc := true }
  if canConfig.fd.isSome then update fun o => { o with fd := true }
  setCan idx canConfig r.kernel.canRefused
  if canConfig.state = .up then set (.setState idx "up") r.kernel.upRefused

def configureCan (r : Request) : Config Unit := do
  let canConfig := r.action
  if canConfig.channel ∉ r.kernel.interfaces then return ()
  else
    let idx ← first (.lookup canConfig.channel) r.kernel.indices
    let state ← first (.get idx) r.kernel.links
    if state = some "up" then set (.setState idx "down") r.kernel.downRefused
    configureLink idx r

/-- The loop of `configure_actions`: an exception leaves the actions behind it. -/
def configureActions : List Request → Config Unit
  | [] => return ()
  | r :: rs => do
    configureCan r
    configureActions rs

/-! ## One action -/

def CanConfigurationAction.requested (a : CanConfigurationAction) : CtrlMode :=
  ⟨a.ccLen8Dlc, a.fd.isSome⟩

def CtrlMode.join (o o' : CtrlMode) : CtrlMode := ⟨o.ccLen8Dlc || o'.ccLen8Dlc, o.fd || o'.fd⟩

def approach (r : Request) : List LinkCall × Option ℕ :=
  if r.action.channel ∉ r.kernel.interfaces then ([], none)
  else match r.kernel.indices with
    | none | some [] => ([.lookup r.action.channel], none)
    | some (idx :: _) =>
      match r.kernel.links with
      | none | some [] => ([.lookup r.action.channel, .get idx], none)
      | some (state :: _) =>
        if state = some "up" then
          ([.lookup r.action.channel, .get idx, .setState idx "down"],
            if r.kernel.downRefused then none else some idx)
        else ([.lookup r.action.channel, .get idx], some idx)

def applied (r : Request) (mode : CtrlMode) (idx : ℕ) : List LinkCall :=
  .setCan idx r.action.bitrate r.action.samplePoint mode (r.action.fd.map CanFdOptions.dbitrate) ::
    if r.action.state = .up then [.setState idx "up"] else []

def calls (r : Request) (mode : CtrlMode) : List LinkCall :=
  match approach r with
  | (cs, none) => cs
  | (cs, some idx) => cs ++ applied r mode idx

def reaches (r : Request) : Bool := (approach r).2.isSome

def optionsAfter (o : CtrlMode) (r : Request) : CtrlMode :=
  if reaches r then o.join r.action.requested else o

def Manager.logged (m : Manager) (c : LinkCall) : Manager := { m with log := m.log ++ [c] }

theorem first_none {α : Type} (c : LinkCall) (m : Manager) :
    first (α := α) c none m = (.error .netlinkError, m.logged c) := rfl

theorem first_nil {α : Type} (c : LinkCall) (m : Manager) :
    first (α := α) c (some []) m = (.error .indexError, m.logged c) := rfl

theorem first_cons {α : Type} (c : LinkCall) (a : α) (as : List α) (m : Manager) :
    first c (some (a :: as)) m = (.ok a, m.logged c) := rfl

theorem set_refused (c : LinkCall) (m : Manager) :
    set c true m = (.error .netlinkError, m.logged c) := rfl

theorem set_done (c : LinkCall) (m : Manager) : set c false m = (.ok (), m.logged c) := rfl

theorem setCan_done (idx : ℕ) (a : CanConfigurationAction) (refused : Bool) (m : Manager) :
    setCan idx a refused m = (.ok (), m.logged (.setCan idx a.bitrate a.samplePoint
      m.ctrlmodeOptions (a.fd.map CanFdOptions.dbitrate))) := by
  cases refused <;> rfl

theorem configureLink_state (r : Request) (idx : ℕ) (m : Manager) :
    (configureLink idx r m).2 = ⟨m.ctrlmodeOptions.join r.action.requested,
      m.log ++ applied r (m.ctrlmodeOptions.join r.action.requested) idx⟩ := by
  obtain ⟨⟨channel, state, bitrate, samplePoint, ccLen8Dlc, fd⟩, kernel⟩ := r
  obtain ⟨interfaces, indices, links, downRefused, canRefused, upRefused⟩ := kernel
  by_cases hstate : state = .up <;> cases ccLen8Dlc <;> cases fd <;> cases upRefused <;>
    simp [configureLink, bind_apply, pure_apply, setCan_done, set_refused, set_done, update,
      modify_apply, applied, Manager.logged, hstate, CtrlMode.join,
      CanConfigurationAction.requested]

theorem configureCan_state (r : Request) (m : Manager) :
    (configureCan r m).2 = ⟨optionsAfter m.ctrlmodeOptions r,
      m.log ++ calls r (optionsAfter m.ctrlmodeOptions r)⟩ := by
  have hlink := configureLink_state r
  simp only [configureCan, optionsAfter, calls, reaches, approach]
  by_cases hchannel : r.action.channel ∈ r.kernel.interfaces
  · simp only [hchannel, not_true_eq_false, if_false]
    cases hindices : r.kernel.indices with
    | none =>
      rw [bind_error (first_none _ m)]
      simp [Manager.logged]
    | some indices =>
      cases indices with
      | nil =>
        rw [bind_error (first_nil _ m)]
        simp [Manager.logged]
      | cons idx indices =>
        rw [bind_ok (first_cons _ idx indices m)]
        cases hlinks : r.kernel.links with
        | none =>
          rw [bind_error (first_none _ _)]
          simp [Manager.logged]
        | some links =>
          cases links with
          | nil =>
            rw [bind_error (first_nil _ _)]
            simp [Manager.logged]
          | cons state links =>
            rw [bind_ok (first_cons _ state links _)]
            by_cases hup : state = some "up"
            · simp only [hup, if_true]
              cases hdown : r.kernel.downRefused with
              | true =>
                rw [bind_error (set_refused _ _)]
                simp [Manager.logged]
              | false =>
                rw [bind_ok (set_done _ _), hlink]
                simp [Manager.logged]
            · simp only [hup, if_false]
              rw [hlink]
              simp [Manager.logged]
  · simp [hchannel, pure_apply]

theorem blind_first {α : Type} (c : LinkCall) (answer : Option (List α)) :
    Blind (first c answer) := by
  intro m m'
  cases answer with
  | none => rfl
  | some as => cases as <;> rfl

theorem blind_set (c : LinkCall) (refused : Bool) : Blind (set c refused) := by
  intro m m'
  cases refused <;> rfl

theorem blind_update (f : CtrlMode → CtrlMode) : Blind (update f) := fun _ _ => rfl

theorem blind_return : Blind (pure () : Config Unit) := fun _ _ => rfl

theorem blind_configureLink (idx : ℕ) (r : Request) : Blind (configureLink idx r) := by
  have hset : Blind (setCan idx r.action r.kernel.canRefused) := by
    intro m m'
    rw [setCan_done, setCan_done]
  have hup := blind_bind hset fun _ =>
    blind_ite (c := r.action.state = .up) (blind_set (.setState idx "up") r.kernel.upRefused)
      blind_return
  have hfd := blind_ite (c := r.action.fd.isSome)
    (blind_bind (blind_update fun o => { o with fd := true }) fun _ => hup) hup
  exact blind_ite (blind_bind (blind_update _) fun _ => hfd) hfd

theorem blind_configureCan (r : Request) : Blind (configureCan r) := by
  refine blind_ite blind_return (blind_bind (blind_first _ _) fun idx => ?_)
  refine blind_bind (blind_first _ _) fun state => ?_
  refine blind_ite (blind_bind (blind_set _ _) fun _ => ?_) ?_
  · exact blind_configureLink idx r
  · exact blind_configureLink idx r

/-! ## Histories of actions -/

def raises (r : Request) : Bool :=
  match (configureCan r newManager).1 with
  | .ok _ => false
  | .error _ => true

/-- The actions of one `configure_actions` up to the one that raises. -/
def handled : List Request → List Request
  | [] => []
  | r :: rs => if raises r then [r] else r :: handled rs

def configure (m : Manager) (r : Request) : Manager := (configureCan r m).2

/-- A manager asked to configure one list of actions after the other. -/
def history (m : Manager) (lists : List (List Request)) : Manager :=
  lists.foldl (fun m rs => (configureActions rs m).2) m

theorem configureActions_handled (rs : List Request) (m : Manager) :
    (configureActions rs m).2 = run configure m (handled rs) := by
  induction rs generalizing m with
  | nil => rfl
  | cons r rs ih =>
    have hblind := blind_configureCan r m newManager
    match h : configureCan r m with
    | (.ok (), m') =>
      have hr : raises r = false := by
        rw [raises, ← hblind, h]
      rw [configureActions, bind_ok h, ih, handled, hr]
      simp [run, configure, h]
    | (.error e, m') =>
      have hr : raises r = true := by
        rw [raises, ← hblind, h]
      rw [configureActions, bind_error h, handled, hr]
      simp [run, configure, h]

theorem history_handled (lists : List (List Request)) (m : Manager) :
    history m lists = run configure m (lists.flatMap handled) := by
  induction lists generalizing m with
  | nil => rfl
  | cons rs lists ih =>
    show history (configureActions rs m).2 lists = _
    rw [ih, configureActions_handled, List.flatMap_cons]
    simp only [run, List.foldl_append]

def LinkCall.ctrlmode : LinkCall → Option CtrlMode
  | .setCan _ _ _ mode _ => some mode
  | _ => none

def made (m : Manager) (r : Request) : List LinkCall := (configure m r).log.drop m.log.length

/-- The options passed to the kernel are those of the action, and all calls are
those of a new manager. -/
def Alone (m : Manager) (r : Request) : Prop :=
  (∀ mode ∈ (made m r).filterMap LinkCall.ctrlmode,
    mode.ccLen8Dlc = r.action.ccLen8Dlc ∧ mode.fd = r.action.fd.isSome) ∧
  made m r = made newManager r

instance (m : Manager) (r : Request) : Decidable (Alone m r) := inferInstanceAs (Decidable (_ ∧ _))

/-- No option of the manager is one that the action does without. -/
def Fits (m : Manager) (r : Request) : Prop :=
  reaches r → (m.ctrlmodeOptions.ccLen8Dlc → r.action.ccLen8Dlc) ∧
    (m.ctrlmodeOptions.fd → r.action.fd.isSome)

/-- What the earlier action turns on, the later one asks for as well. -/
def Compatible (r s : Request) : Prop :=
  reaches r → reaches s → (r.action.ccLen8Dlc → s.action.ccLen8Dlc) ∧
    (r.action.fd.isSome → s.action.fd.isSome)

theorem made_eq (m : Manager) (r : Request) :
    made m r = calls r (optionsAfter m.ctrlmodeOptions r) := by
  rw [made, configure, configureCan_state]
  simp

theorem approach_ctrlmode (r : Request) : (approach r).1.filterMap LinkCall.ctrlmode = [] := by
  unfold approach
  by_cases hchannel : r.action.channel ∈ r.kernel.interfaces
  · simp only [hchannel, not_true_eq_false, if_false]
    cases r.kernel.indices with
    | none => rfl
    | some indices =>
      cases indices with
      | nil => rfl
      | cons idx indices =>
        cases r.kernel.links with
        | none => rfl
        | some links =>
          cases links with
          | nil => rfl
          | cons state links => by_cases hup : state = some "up" <;> simp [hup, LinkCall.ctrlmode]
  · simp [hchannel]

theorem calls_ctrlmode (r : Request) (mode : CtrlMode) :
    (calls r mode).filterMap LinkCall.ctrlmode = if reaches r then [mode] else [] := by
  have h := approach_ctrlmode r
  match ha : approach r with
  | (cs, none) =>
    rw [ha] at h
    simpa [calls, reaches, ha] using h
  | (cs, some idx) =>
    rw [ha] at h
    simp only [calls, reaches, ha, applied, List.filterMap_append, h]
    split_ifs <;> simp [LinkCall.ctrlmode] at *

theorem calls_unreached (r : Request) (h : ¬ reaches r = true) (mode mode' : CtrlMode) :
    calls r mode = calls r mode' := by
  match ha : approach r with
  | (cs, none) => simp only [calls, ha]
  | (cs, some idx) => simp [reaches, ha] at h

theorem join_requested (o : CtrlMode) (a : CanConfigurationAction) :
    o.join a.requested = a.requested ↔
      (o.ccLen8Dlc → a.ccLen8Dlc) ∧ (o.fd → a.fd.isSome) := by
  obtain ⟨ccLen8Dlc, fd⟩ := o
  simp only [CtrlMode.join, CanConfigurationAction.requested, CtrlMode.mk.injEq]
  cases ccLen8Dlc <;> cases fd <;> simp

theorem requested_iff (mode : CtrlMode) (a : CanConfigurationAction) :
    mode = a.requested ↔ mode.ccLen8Dlc = a.ccLen8Dlc ∧ mode.fd = a.fd.isSome := by
  obtain ⟨ccLen8Dlc, fd⟩ := mode
  simp [CanConfigurationAction.requested]

theorem alone_iff (m : Manager) (r : Request) : Alone m r ↔ Fits m r := by
  rw [Alone, Fits, made_eq, made_eq, calls_ctrlmode]
  by_cases hr : reaches r = true
  · have hnew : optionsAfter newManager.ctrlmodeOptions r = r.action.requested := by
      simp [optionsAfter, hr, newManager, CtrlMode.join, CanConfigurationAction.requested]
    have hafter : optionsAfter m.ctrlmodeOptions r = m.ctrlmodeOptions.join r.action.requested := by
      simp [optionsAfter, hr]
    rw [hnew, hafter]
    simp only [hr, if_true, List.mem_singleton, forall_eq, true_imp_iff, ← requested_iff,
      ← join_requested]
    exact ⟨fun h => h.1, fun h => ⟨h, by rw [h]⟩⟩
  · rw [if_neg hr]
    exact iff_of_true ⟨by simp, calls_unreached r hr _ _⟩ fun h => absurd h hr

theorem options_configure (m : Manager) (r : Request) :
    (configure m r).ctrlmodeOptions = optionsAfter m.ctrlmodeOptions r := by
  rw [configure, configureCan_state]

theorem fits_configure (m : Manager) (r s : Request) :
    Fits (configure m r) s ↔ Fits m s ∧ Compatible r s := by
  rw [Fits, Fits, Compatible, options_configure, optionsAfter]
  by_cases hr : reaches r = true
  · simp only [hr, if_true, true_imp_iff, CtrlMode.join, CanConfigurationAction.requested,
      Bool.or_eq_true]
    constructor
    · intro h
      exact ⟨fun hs => ⟨fun ho => (h hs).1 (.inl ho), fun ho => (h hs).2 (.inl ho)⟩,
        fun hs => ⟨fun ho => (h hs).1 (.inr ho), fun ho => (h hs).2 (.inr ho)⟩⟩
    · rintro ⟨ho, hrs⟩ hs
      exact ⟨fun h => h.elim (ho hs).1 (hrs hs).1, fun h => h.elim (ho hs).2 (hrs hs).2⟩
  · simp [hr]

theorem each_fits (rs : List Request) (m : Manager) :
    Each configure Fits m rs ↔ (∀ r ∈ rs, Fits m r) ∧ rs.Pairwise Compatible := by
  induction rs generalizing m with
  | nil => simp [Each]
  | cons r rs ih =>
    rw [Each, ih, List.forall_mem_cons, List.pairwise_cons]
    simp only [fits_configure]
    constructor
    · rintro ⟨hr, hrs, hpair⟩
      exact ⟨⟨hr, fun s hs => (hrs s hs).1⟩, fun s hs => (hrs s hs).2, hpair⟩
    · rintro ⟨⟨hr, hrs⟩, hfirst, hpair⟩
      exact ⟨hr, fun s hs => ⟨hrs s hs, hfirst s hs⟩, hpair⟩

/-- The options are those of each action alone exactly if no action that reaches
the kernel does without an option that one before it has turned on. -/
theorem configuration_iff (lists : List (List Request)) :
    Each configure Alone newManager (lists.flatMap handled) ↔
      (lists.flatMap handled).Pairwise Compatible := by
  have hiff : Each configure Alone newManager (lists.flatMap handled) ↔
      Each configure Fits newManager (lists.flatMap handled) :=
    each_iff_each (I := fun _ => True) (fun _ _ _ _ => trivial) (fun m r _ => alone_iff m r)
      trivial _
  rw [hiff, each_fits]
  apply and_iff_right
  rintro r - -
  simp [newManager]

def idleKernel : Kernel := ⟨["can0", "can1"], some [3], some [some "down"], false, false, false⟩

/-- CAN FD on `can0`, and then classic CAN on `can1`. -/
def fdThenClassic : List Request :=
  [⟨⟨"can0", .up, 500000, 7/8, false, some ⟨2000000⟩⟩, idleKernel⟩,
    ⟨⟨"can1", .up, 500000, 7/8, false, none⟩, idleKernel⟩]

theorem fd_leaks : ¬ Each configure Alone newManager ([fdThenClassic].flatMap handled) ∧
    .setCan 3 500000 (7/8) ⟨false, true⟩ none ∈ (history newManager [fdThenClassic]).log := by
  decide +kernel

end InVehicle.CanConfiguration
