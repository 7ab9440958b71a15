import InVehicle.BackgroundPlugin
import InVehicle.Dicts
import InVehicle.Effect

/-!
# The plugin manager

`PluginManager` keeps its plugins in a dictionary keyed by the name of their class and
starts and stops those that were added for the background. The calls that reach a plugin
are recorded.
-/

set_option autoImplicit false

namespace InVehicle.PluginManager
open InVehicle.Effect InVehicle.Dicts
open InVehicle.BackgroundPlugin (Call)

/-! ## The manager -/

/-- What is passed as a plugin: an object, or a class, which may be derived from
`BackgroundPluginBase`. -/
structure PluginObject where
  id : ℕ
  className : String
  isClass : Bool
  derived : Bool
  deriving DecidableEq, Repr

structure PluginEntry where
  pluginInstance : PluginObject
  background : Bool
  deriving DecidableEq, Repr

inductive PluginError where
  | typeError
  | assertionError
  | attributeError
  deriving DecidableEq, Repr

structure World where
  plugins : List (String × PluginEntry)
  calls : List (ℕ × Call)

def World.start : World := ⟨[], []⟩

abbrev Manager := Prog World PluginError

def addPlugin (pluginInstance : PluginObject) (background : Bool) : Manager Unit :=
  Prog.modify fun w =>
    { w with plugins := put pluginInstance.className ⟨pluginInstance, background⟩ w.plugins }

def PluginEntry.attributes : List String := ["instance", "background", "count", "index"]

/-- A method is looked up among the attributes of the object it is called on. -/
def callMethod (attributes : List String) (name : String) (p : PluginObject) (call : Call) :
    Manager Unit :=
  if name ∈ attributes then Prog.modify fun w => { w with calls := w.calls ++ [(p.id, call)] }
  else Prog.raise .attributeError

/-- `assert issubclass(…, BackgroundPluginBase)` -/
def assertSubclass (p : PluginObject) : Manager Unit :=
  if !p.isClass then Prog.raise .typeError
  else if p.derived then return ()
  else Prog.raise .assertionError

/-- `self.plugins[plugin_name].background = False`, on a tuple. -/
def clearBackground : Manager Unit := Prog.raise .attributeError

def startEntry (e : PluginEntry) : Manager Unit := do
  assertSubclass e.pluginInstance
  callMethod PluginEntry.attributes "start" e.pluginInstance .start

def stopEntry (e : PluginEntry) : Manager Unit := do
  assertSubclass e.pluginInstance
  callMethod PluginEntry.attributes "stop" e.pluginInstance .stop
  clearBackground

def ifBackground (e : PluginEntry) (body : Manager Unit) : Manager Unit :=
  if e.background then body else pure ()

def forBackground (body : PluginEntry → Manager Unit) : List (String × PluginEntry) → Manager Unit
  | [] => return ()
  | (_, e) :: items => do
    ifBackground e (body e)
    forBackground body items

def startBackgroundPlugins : Manager Unit := do
  let w ← Prog.get
  forBackground startEntry w.plugins

def stopBackgroundPlugins : Manager Unit := do
  let w ← Prog.get
  forBackground stopEntry w.plugins

/-- The arguments of a call of `add_plugin`. -/
structure Add where
  pluginInstance : PluginObject
  background : Bool
  deriving DecidableEq, Repr

def addAll : List Add → Manager Unit
  | [] => return ()
  | a :: adds => do
    addPlugin a.pluginInstance a.background
    addAll adds

/-! ## What the methods do with background plugins -/

theorem callMethod_raises (p : PluginObject) (call : Call) (name : String)
    (h : name ∉ PluginEntry.attributes) (w : World) :
    callMethod PluginEntry.attributes name p call w = (.error .attributeError, w) := by
  rw [callMethod, if_neg h]
  rfl

theorem assertSubclass_apply (p : PluginObject) (w : World) :
    ∃ r, assertSubclass p w = (r, w) := by
  rw [assertSubclass]
  split_ifs <;> exact ⟨_, rfl⟩

theorem startEntry_raises (e : PluginEntry) (w : World) :
    ∃ error, startEntry e w = (.error error, w) := by
  obtain ⟨r, hr⟩ := assertSubclass_apply e.pluginInstance w
  cases r with
  | error error => exact ⟨error, bind_error hr⟩
  | ok _ => exact ⟨_, (bind_ok hr).trans (callMethod_raises _ _ _ (by decide) w)⟩

section Loop

variable {e : PluginEntry} {body : Manager Unit}

theorem ifBackground_true (h : e.background = true) : ifBackground e body = body := if_pos h

theorem ifBackground_false (h : e.background = false) : ifBackground e body = pure () :=
  if_neg (by simp [h])

end Loop

theorem forBackground_raises (body : PluginEntry → Manager Unit) (w : World)
    (hbody : ∀ e, ∃ error, body e w = (.error error, w)) (items : List (String × PluginEntry)) :
    (∃ error, forBackground body items w = (.error error, w)) ↔
      ∃ x ∈ items, x.2.background = true := by
  induction items with
  | nil => simp [forBackground, pure_apply]
  | cons x items ih =>
    obtain ⟨name, e⟩ := x
    rw [forBackground]
    cases hb : e.background with
    | true =>
      obtain ⟨error, herror⟩ := hbody e
      rw [ifBackground_true hb, bind_error herror]
      exact iff_of_true ⟨error, rfl⟩ ⟨(name, e), List.mem_cons_self, hb⟩
    | false =>
      rw [ifBackground_false hb, bind_ok (pure_apply () w), ih]
      simp [hb]

theorem forBackground_none (body : PluginEntry → Manager Unit) (w : World)
    (items : List (String × PluginEntry)) (h : ∀ x ∈ items, x.2.background = false) :
    forBackground body items w = (.ok (), w) := by
  induction items with
  | nil => rfl
  | cons x items ih =>
    obtain ⟨hx, hitems⟩ := List.forall_mem_cons.mp h
    obtain ⟨name, e⟩ := x
    rw [forBackground, ifBackground_false hx, bind_ok (pure_apply () w), ih hitems]

/-- The plugins with the identities `registered` are started once by the one method and
stopped once by the other, and no other plugin is called. -/
def RunsExactly (registered : List ℕ) (w : World) : Prop :=
  ∃ t u, startBackgroundPlugins w = (.ok (), t) ∧ stopBackgroundPlugins t = (.ok (), u) ∧
    ∀ p call,
      t.calls.count (p, call) = (if p ∈ registered ∧ call = .start then 1 else 0) ∧
      u.calls.count (p, call) = if p ∈ registered then 1 else 0

theorem runsExactly_iff (registered : List ℕ) (w : World) (hcalls : w.calls = []) :
    RunsExactly registered w ↔
      registered = [] ∧ ∀ x ∈ w.plugins, x.2.background = false := by
  constructor
  · rintro ⟨t, u, hstart, -, hcount⟩
    have hnone : ∀ x ∈ w.plugins, x.2.background = false := by
      by_contra hsome
      push Not at hsome
      obtain ⟨x, hx, hb⟩ := hsome
      obtain ⟨error, herror⟩ := (forBackground_raises startEntry w (fun e => startEntry_raises e w)
        w.plugins).mpr ⟨x, hx, by simpa using hb⟩
      cases herror.symm.trans hstart
    refine ⟨?_, hnone⟩
    cases (forBackground_none startEntry w w.plugins hnone).symm.trans hstart
    rw [List.eq_nil_iff_forall_not_mem]
    intro p hp
    have hp1 := (hcount p .start).1
    simp [hcalls, hp] at hp1
  · rintro ⟨rfl, hnone⟩
    refine ⟨w, w, forBackground_none startEntry w w.plugins hnone,
      forBackground_none stopEntry w w.plugins hnone, ?_⟩
    simp [hcalls]

/-! ## What was added -/

/-- The class name that an object is registered under. -/
def Add.key (a : Add) : String := a.pluginInstance.className

def Add.entry (a : Add) : PluginEntry := ⟨a.pluginInstance, a.background⟩

def table (adds : List Add) : List (String × PluginEntry) :=
  adds.foldl (fun d a => put a.key a.entry d) []

theorem addAll_apply (adds : List Add) (w : World) :
    addAll adds w = (.ok (), { w with
      plugins := adds.foldl (fun d a => put a.key a.entry d) w.plugins }) := by
  induction adds generalizing w with
  | nil => rfl
  | cons a adds ih =>
    have hadd : addPlugin a.pluginInstance a.background w =
        (.ok (), { w with plugins := put a.key a.entry w.plugins }) := rfl
    rw [addAll, bind_ok hadd, ih, List.foldl_cons]

theorem table_concat (adds : List Add) (a : Add) :
    table (adds ++ [a]) = put a.key a.entry (table adds) := by
  rw [table, List.foldl_append]
  rfl

theorem nodup_table (adds : List Add) : ((table adds).map Prod.fst).Nodup := by
  induction adds using List.reverseRecOn with
  | nil => exact List.nodup_nil
  | append_singleton adds a ih =>
    rw [table_concat]
    exact nodup_put ih _ _

def Latest (adds : List Add) (a : Add) : Prop :=
  ∃ before after, adds = before ++ a :: after ∧ ∀ b ∈ after, b.key ≠ a.key

theorem latest_concat (adds : List Add) (a b : Add) :
    Latest (adds ++ [b]) a ↔ a = b ∨ a.key ≠ b.key ∧ Latest adds a := by
  constructor
  · rintro ⟨before, after, heq, hafter⟩
    rcases List.eq_nil_or_concat after with rfl | ⟨after, c, rfl⟩
    · exact Or.inl (List.append_singleton_inj.mp heq).2.symm
    · simp only [List.concat_eq_append] at heq hafter
      rw [← List.cons_append, ← List.append_assoc] at heq
      obtain ⟨rfl, rfl⟩ := List.append_singleton_inj.mp heq
      refine Or.inr ⟨(hafter b (by simp)).symm, before, after, rfl, ?_⟩
      exact fun x hx => hafter x (List.mem_append_left _ hx)
  · rintro (rfl | ⟨hkey, before, after, rfl, hafter⟩)
    · exact ⟨adds, [], rfl, by simp⟩
    · refine ⟨before, after ++ [b], by simp, ?_⟩
      intro x hx
      rcases List.mem_append.mp hx with hx | hx
      · exact hafter x hx
      · rw [List.mem_singleton.mp hx]
        exact hkey.symm

theorem mem_table (adds : List Add) (x : String × PluginEntry) :
    x ∈ table adds ↔ ∃ a, Latest adds a ∧ x = (a.key, a.entry) := by
  induction adds using List.reverseRecOn with
  | nil => simp [table, Latest]
  | append_singleton adds b ih =>
    obtain ⟨name, e⟩ := x
    rw [table_concat, mem_put (nodup_table adds)]
    simp only [latest_concat]
    by_cases hname : name = b.key
    · rw [if_pos hname]
      constructor
      · rintro rfl
        exact ⟨b, Or.inl rfl, by rw [hname]⟩
      · rintro ⟨a, rfl | ⟨hkey, -⟩, hx⟩
        · exact (Prod.mk.inj hx).2
        · exact absurd ((Prod.mk.inj hx).1.symm.trans hname) hkey
    · rw [if_neg hname, ih]
      constructor
      · rintro ⟨a, ha, hx⟩
        obtain ⟨rfl, rfl⟩ := Prod.mk.inj hx
        exact ⟨a, Or.inr ⟨hname, ha⟩, rfl⟩
      · rintro ⟨a, rfl | ⟨-, ha⟩, hx⟩
        · exact absurd (Prod.mk.inj hx).1 hname
        · exact ⟨a, ha, hx⟩

/-- The plugins that were added for the background. -/
def addedForBackground (adds : List Add) : List ℕ :=
  (adds.filter Add.background).map fun a => a.pluginInstance.id

def registered (plugins : List (String × PluginEntry)) : List ℕ :=
  (plugins.filter fun x => x.2.background).map fun x => x.2.pluginInstance.id

/-- The life cycle works exactly if there is no background plugin in it, whether one
counts the calls of `add_plugin` or what the table holds behind them. -/
theorem lifeCycle_runs_iff (adds : List Add) :
    ∃ w, addAll adds World.start = (.ok (), w) ∧
      (RunsExactly (addedForBackground adds) w ↔ ∀ a ∈ adds, a.background = false) ∧
      (RunsExactly (registered w.plugins) w ↔ ∀ a, Latest adds a → a.background = false) := by
  refine ⟨⟨table adds, []⟩, addAll_apply adds World.start, ?_, ?_⟩
  · rw [runsExactly_iff _ _ rfl]
    constructor
    · rintro ⟨hnil, -⟩ a ha
      rw [addedForBackground, List.map_eq_nil_iff, List.filter_eq_nil_iff] at hnil
      simpa using hnil a ha
    · intro h
      refine ⟨?_, ?_⟩
      · rw [addedForBackground, List.map_eq_nil_iff, List.filter_eq_nil_iff]
        intro a ha
        simp [h a ha]
      · intro x hx
        obtain ⟨a, ⟨before, after, rfl, -⟩, rfl⟩ := (mem_table adds x).mp hx
        exact h a (by simp)
  · rw [runsExactly_iff _ _ rfl]
    have hlatest : (∀ x ∈ table adds, x.2.background = false) ↔
        ∀ a, Latest adds a → a.background = false := by
      constructor
      · exact fun h a ha => h _ ((mem_table adds _).mpr ⟨a, ha, rfl⟩)
      · intro h x hx
        obtain ⟨a, ha, rfl⟩ := (mem_table adds x).mp hx
        exact h a ha
    rw [hlatest, and_iff_right_of_imp]
    intro h
    rw [registered, List.map_eq_nil_iff, List.filter_eq_nil_iff]
    intro x hx
    simp [hlatest.mpr h x hx]

/-- One background plugin, passed as an object. -/
theorem one_plugin_not_started :
    ∃ w, addAll [⟨⟨0, "MyBackgroundPlugin", false, false⟩, true⟩] World.start =
        (.ok (), w) ∧
      startBackgroundPlugins w = (.error .typeError, w) ∧
      ¬ RunsExactly [0] w := by
  refine ⟨_, rfl, rfl, fun h => ?_⟩
  cases ((runsExactly_iff _ _ rfl).mp h).1

end InVehicle.PluginManager
