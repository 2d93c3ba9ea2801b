import PathBinding.Proofs.Session

/-!
Types and views do not interfere. What a type can tell apart of a registry and of a session are the settings, its own
mapping, its own producers, what it declares and its own views (`Session.Agree`). An operation on a type does and reports
the same in sessions that agree on the type (`agree_next`), and all other operations leave them in agreement
(`agree_next_of_ne`). So a run is, for one type, the run of the operations on this type (`agree_after`), and what types
report and leave does not depend on how their operations are interleaved (`reports_eq_of_interleaved`).
-/

set_option autoImplicit false
set_option relaxedAutoImplicit false

namespace PathBinding

/-! ### What a type sees of a registry -/

namespace Registry

/-- Two registries that one type cannot tell apart. -/
structure Agree (key : TypeKey) (registry other : Registry) : Prop where
  settings : registry.settings = other.settings
  mapping? : registry.mapping? key = other.mapping? key
  producersOf : registry.producersOf key = other.producersOf key

/-- Two steps that one type cannot tell apart. -/
structure Step.Agree {α : Type} (key : TypeKey) (step other : Step α) : Prop where
  registry : step.registry.Agree key other.registry
  trace : step.trace = other.trace
  result : step.result = other.result

variable {registry other : Registry} {key type : TypeKey}

theorem agree_mapping (h : registry.Agree key other) (declaration : Declaration) :
    (registry.mapping key declaration).Agree key (other.mapping key declaration) := by
  have hreported : (registry.mapping key declaration).trace = (other.mapping key declaration).trace ∧
      (registry.mapping key declaration).result = (other.mapping key declaration).result := by
    unfold mapping
    rw [h.mapping?, h.settings]
    split
    · exact ⟨rfl, rfl⟩
    · split <;> exact ⟨rfl, rfl⟩
  refine ⟨⟨?_, ?_, ?_⟩, hreported.1, hreported.2⟩
  · rw [settings_mapping, settings_mapping, h.settings]
  · rw [mapping?_mapping, mapping?_mapping, h.mapping?, h.settings]
  · rw [producersOf_eq, producersOf_eq, producers_mapping, producers_mapping]
    exact h.producersOf

theorem agree_withMapping {α : Type} {next : Registry → Mapping → Step α}
    (hnext : ∀ {registry other : Registry}, registry.Agree key other → ∀ mapping,
      (next registry mapping).Agree key (next other mapping))
    (h : registry.Agree key other) (declaration : Declaration) :
    (registry.withMapping key declaration next).Agree key (other.withMapping key declaration next) := by
  have hfirst := agree_mapping h declaration
  cases hresult : (registry.mapping key declaration).result with
  | error e =>
    rw [withMapping_of_fault hresult, withMapping_of_fault (hfirst.result.symm.trans hresult)]
    exact ⟨hfirst.registry, hfirst.trace, rfl⟩
  | ok mapping =>
    rw [withMapping_of_mapping hresult, withMapping_of_mapping (hfirst.result.symm.trans hresult)]
    have hsecond := hnext hfirst.registry mapping
    refine ⟨hsecond.registry, ?_, hsecond.result⟩
    dsimp only
    rw [hfirst.trace, hsecond.trace]

theorem agree_setDynamicRegex (h : registry.Agree key other) (declaration : Declaration) (name : String)
    (producer : Producer) : (registry.setDynamicRegex key declaration name producer).Agree key
      (other.setDynamicRegex key declaration name producer) := by
  refine agree_withMapping ?_ h declaration
  intro registry other h mapping
  dsimp only
  split
  · split
    · refine ⟨⟨h.settings, h.mapping?, ?_⟩, rfl, rfl⟩
      simp only [producersOf_eq, producersIn_cons_self, producersIn_filter, if_pos]
      exact congrArg (fun producers ↦ (name, producer) :: producers.filter (·.1 != name)) h.producersOf
    · exact ⟨h, rfl, rfl⟩
  · exact ⟨h, rfl, rfl⟩

theorem agree_format (h : registry.Agree key other) (declaration : Declaration) (view : View) (template : String)
    (arguments : List String) : (registry.format key declaration view template arguments).Agree key
      (other.format key declaration view template arguments) := by
  refine agree_withMapping ?_ h declaration
  intro registry other h mapping
  exact ⟨h, rfl, congrArg (Template.render mapping view template arguments) h.settings⟩

theorem agree_matchWith {σ : Type} (access : Access σ) (h : registry.Agree key other) (declaration : Declaration)
    (target : σ) (path : String) : let found := registry.matchWith access key declaration target path
    let own := other.matchWith access key declaration target path
    found.1 = own.1 ∧ found.2.Agree key own.2 := by
  have hfirst := agree_mapping h declaration
  cases hresult : (registry.mapping key declaration).result with
  | error e =>
    rw [matchWith_of_fault hresult, matchWith_of_fault (hfirst.result.symm.trans hresult)]
    exact ⟨rfl, hfirst.registry, hfirst.trace, rfl⟩
  | ok mapping =>
    rw [matchWith_of_mapping hresult, matchWith_of_mapping (hfirst.result.symm.trans hresult), h.producersOf, hfirst.trace]
    exact ⟨rfl, hfirst.registry, rfl, rfl⟩

/-! ### What another type does to a registry -/

theorem agree_mapping_of_ne (h : type ≠ key) (registry : Registry) (declaration : Declaration) :
    registry.Agree key (registry.mapping type declaration).registry where
  settings := (settings_mapping registry type declaration).symm
  mapping? := by rw [mapping?_mapping, if_neg h, Option.or_none]
  producersOf := by rw [producersOf_eq, producersOf_eq, producers_mapping]

theorem agree_setDynamicRegex_of_ne (h : type ≠ key) (registry : Registry) (declaration : Declaration) (name : String)
    (producer : Producer) : registry.Agree key (registry.setDynamicRegex type declaration name producer).registry := by
  have hfirst := agree_mapping_of_ne h registry declaration
  rcases registry.setDynamicRegex_cases type declaration name producer with
    ⟨_, _, -, -, -, -, hregistry⟩ | ⟨_, -, hregistry, -⟩
  · rw [hregistry]
    refine ⟨hfirst.settings, hfirst.mapping?, ?_⟩
    rw [producersOf_eq, producersOf_eq, producersIn_cons_of_ne h, producersIn_filter, if_neg h]
  · rw [hregistry]
    exact hfirst

end Registry

namespace Session

/-- The type that an operation is about, if there is the view to act on. -/
def typeOf? (session : Session) : Operation → Option TypeKey
  | .act index _ => (session.instances[index]?).map (·.type)
  | .redeclare type _ => some type

def concerns (session : Session) (key : TypeKey) (operation : Operation) : Bool :=
  session.typeOf? operation = some key

/-- The trace and the answer of an operation, if it has a view to act on. -/
def report? (session : Session) (operation : Operation) : Option (List TraceEntry × Except Error Answer) :=
  (session.step? operation).map fun step ↦ (step.trace, step.answer)

/-- The operations of a run on a type in turn, each with what it reports. -/
def reports (session : Session) (key : TypeKey) :
    List Operation → List (Operation × Option (List TraceEntry × Except Error Answer))
  | [] => []
  | operation :: rest =>
    let later := (session.next operation).reports key rest
    if session.concerns key operation then (operation, session.report? operation) :: later else later

/-- Two sessions that one type cannot tell apart. -/
structure Agree (key : TypeKey) (session other : Session) : Prop where
  registry : session.registry.Agree key other.registry
  spec : session.types.lookup key = other.types.lookup key
  instances : ∀ (index : Nat) (inst : Instance), inst.type = key →
    (session.instances[index]? = some inst ↔ other.instances[index]? = some inst)

variable {session other third start : Session} {index : Nat} {inst : Instance} {spec : TypeSpec} {view : View}
  {key type : TypeKey} {action : Action} {operation : Operation}

theorem Agree.refl (key : TypeKey) (session : Session) : session.Agree key session :=
  ⟨⟨rfl, rfl, rfl⟩, rfl, fun _ _ _ ↦ .rfl⟩

theorem Agree.symm (h : session.Agree key other) : other.Agree key session :=
  ⟨⟨h.registry.settings.symm, h.registry.mapping?.symm, h.registry.producersOf.symm⟩, h.spec.symm,
    fun index inst hkey ↦ (h.instances index inst hkey).symm⟩

theorem Agree.trans (h : session.Agree key other) (hthird : other.Agree key third) : session.Agree key third where
  registry := {
    settings := h.registry.settings.trans hthird.registry.settings
    mapping? := h.registry.mapping?.trans hthird.registry.mapping?
    producersOf := h.registry.producersOf.trans hthird.registry.producersOf }
  spec := h.spec.trans hthird.spec
  instances index inst hkey := (h.instances index inst hkey).trans (hthird.instances index inst hkey)

/-- Sessions that no type can tell apart have the same views. -/
theorem instances_of_agree (h : ∀ key, session.Agree key other) : session.instances = other.instances := by
  refine List.ext_getElem? fun index ↦ Option.ext fun inst ↦ ?_
  exact (h inst.type).instances index inst rfl

theorem concerns_next (session : Session) (operation : Operation) (key : TypeKey) :
    (session.next operation).concerns key = session.concerns key := by
  funext later
  unfold concerns
  cases later with
  | redeclare type spec => rfl
  | act index action => rw [typeOf?, typeOf?, type_next]

/-! ### An operation on a type -/

theorem view?_of_agree (h : session.Agree key other) (hinst : session.instances[index]? = some inst)
    (hkey : inst.type = key) : other.view? index = session.view? index := by
  unfold view?
  rw [hinst, (h.instances index inst hkey).mp hinst]
  dsimp only [Option.bind_eq_bind, Option.bind_some]
  rw [hkey, h.spec]

theorem concerns_of_agree (h : session.Agree key other) (hconcerns : session.concerns key operation = true) :
    other.concerns key operation = true := by
  cases operation with
  | redeclare type spec => exact hconcerns
  | act index action =>
    obtain ⟨inst, hinst, hkey⟩ := Option.map_eq_some_iff.mp (of_decide_eq_true hconcerns)
    exact decide_eq_true (Option.map_eq_some_iff.mpr ⟨inst, (h.instances index inst hkey).mp hinst, hkey⟩)

/-- An action needs no more of a session than its type sees. -/
theorem reported_actWith {σ : Type} (access : Access σ) (h : session.registry.Agree key other.registry)
    (declaration : Declaration) (target : σ) (action : Action) :
    let found := session.actWith access key declaration target action
    let own := other.actWith access key declaration target action
    found.1 = own.1 ∧ found.2.session.registry.Agree key own.2.session.registry ∧ found.2.trace = own.2.trace ∧
      found.2.answer = own.2.answer := by
  cases action with
  | matchPath path =>
    obtain ⟨hleft, hstep⟩ := Registry.agree_matchWith access h declaration target path
    exact ⟨hleft, hstep.registry, hstep.trace, congrArg (Except.map Answer.outcome) hstep.result⟩
  | format template arguments =>
    have hstep := Registry.agree_format h declaration (access.shown target) template arguments
    exact ⟨rfl, hstep.registry, hstep.trace, congrArg (Except.map Answer.text) hstep.result⟩
  | setDynamic name producer =>
    have hstep := Registry.agree_setDynamicRegex h declaration name producer
    exact ⟨rfl, hstep.registry, hstep.trace, congrArg (Except.map fun _ ↦ Answer.done) hstep.result⟩
  | mapping =>
    have hstep := Registry.agree_mapping h declaration
    exact ⟨rfl, hstep.registry, hstep.trace, congrArg (Except.map Answer.mapping) hstep.result⟩
  | set name value? =>
    rw [actWith, actWith]
    cases access.set target name value? <;> exact ⟨rfl, h, rfl, rfl⟩
  | isCached =>
    have hcached : session.registry.isCached key = other.registry.isCached key := congrArg Option.isSome h.mapping?
    rw [actWith, actWith, hcached]
    exact ⟨rfl, h, rfl, rfl⟩
  | settings =>
    rw [actWith, actWith, h.settings]
    exact ⟨rfl, h, rfl, rfl⟩
  | _ => exact ⟨rfl, h, rfl, rfl⟩

theorem agree_act (h : session.Agree inst.type other) (hview : session.view? index = some (inst, spec, view))
    (hother : other.view? index = some (inst, spec, view)) (action : Action) :
    (session.act index inst spec view action).session.Agree inst.type
      (other.act index inst spec view action).session := by
  obtain ⟨hleft, hregistry, -, -⟩ := reported_actWith View.access h.registry spec.declaration view action
  refine ⟨hregistry, ?_, fun place found hfound ↦ ?_⟩
  · rw [types_act, types_act, h.spec]
  · rw [instances_act, instances_act, viewAfter, viewAfter, hleft]
    by_cases hplace : index = place
    · subst hplace
      obtain ⟨hindex, -⟩ := List.getElem?_eq_some_iff.mp (view?_eq_some.mp hview).1
      obtain ⟨hlength, -⟩ := List.getElem?_eq_some_iff.mp (view?_eq_some.mp hother).1
      rw [List.getElem?_set_self hindex, List.getElem?_set_self hlength]
    · rw [List.getElem?_set_ne hplace, List.getElem?_set_ne hplace]
      exact h.instances place found hfound

/-- An operation on a type reports the same in sessions that the type cannot tell apart, and leaves such sessions. -/
theorem agree_next (h : session.Agree key other) (hconcerns : session.concerns key operation = true) :
    (session.next operation).Agree key (other.next operation) ∧
      session.report? operation = other.report? operation := by
  have htype : session.typeOf? operation = some key := of_decide_eq_true hconcerns
  cases operation with
  | redeclare type spec =>
    obtain rfl : type = key := Option.some.inj htype
    refine ⟨⟨h.registry, ?_, h.instances⟩, rfl⟩
    exact (lookup_redeclared_self session.types type spec).trans
      ((congrArg (Option.map fun _ ↦ spec) h.spec).trans (lookup_redeclared_self other.types type spec).symm)
  | act index action =>
    obtain ⟨found, hfound, rfl⟩ := Option.map_eq_some_iff.mp htype
    have hother := view?_of_agree h hfound rfl
    cases hview : session.view? index with
    | none =>
      rw [hview] at hother
      rw [next_of_no_view hview, next_of_no_view hother, report?, report?, step?, step?, hview, hother]
      exact ⟨h, rfl⟩
    | some shown =>
      obtain ⟨inst, spec, view⟩ := shown
      obtain rfl : found = inst := Option.some.inj (hfound.symm.trans (view?_eq_some.mp hview).1)
      rw [hview] at hother
      obtain ⟨-, -, htrace, hanswer⟩ := reported_actWith View.access h.registry spec.declaration view action
      rw [next_act hview, next_act hother, report?, report?, step?_act hview, step?_act hother]
      exact ⟨agree_act h hview hother action, congrArg some (Prod.ext htrace hanswer)⟩

/-! ### An operation on another type -/

theorem agree_actWith_of_ne {σ : Type} (access : Access σ) {type : TypeKey} (h : type ≠ key) (session : Session)
    (declaration : Declaration) (target : σ) (action : Action) : session.registry.Agree key
      (session.actWith access type declaration target action).2.session.registry := by
  rcases session.registry_actWith_cases access type declaration target action with
    ⟨name, producer, -, hregistry⟩ | ⟨-, hregistry⟩
  · rw [hregistry]
    exact Registry.agree_setDynamicRegex_of_ne h session.registry declaration name producer
  · rw [hregistry]
    cases action.builds with
    | true => exact Registry.agree_mapping_of_ne h session.registry declaration
    | false => exact ⟨rfl, rfl, rfl⟩

/-- A type cannot tell that an operation on another type has taken place. -/
theorem agree_next_of_ne (h : session.concerns key operation = false) : session.Agree key (session.next operation) := by
  have htype : session.typeOf? operation ≠ some key := of_decide_eq_false h
  cases operation with
  | redeclare type spec =>
    have hne : type ≠ key := fun heq ↦ htype (congrArg some heq)
    exact ⟨⟨rfl, rfl, rfl⟩, (lookup_redeclared hne spec).symm, fun _ _ _ ↦ .rfl⟩
  | act index action =>
    rcases session.next_cases index action with ⟨-, hnext⟩ | ⟨inst, spec, view, hview, hnext⟩
    · rw [hnext]
      exact .refl key session
    · have hinst := (view?_eq_some.mp hview).1
      have hne : inst.type ≠ key := fun heq ↦ htype (Option.map_eq_some_iff.mpr ⟨inst, hinst, heq⟩)
      refine ⟨?_, ?_, fun place found hfound ↦ ?_⟩
      · rw [hnext]
        exact agree_actWith_of_ne View.access hne session spec.declaration view action
      · rw [hnext, types_act]
      · by_cases hplace : index = place
        · subst hplace
          -- The view that changes is of another type before and after.
          rw [hinst, instance_next_of_view hview]
          refine iff_of_false ?_ ?_
          · rintro ⟨⟩
            exact hne hfound
          · rintro ⟨⟩
            exact hne hfound
        · rw [instance_next_of_ne session fun other heq ↦ hplace (Operation.act.inj heq).1]

/-! ### Runs -/

/-- For one type a run is the run of the operations on this type. -/
theorem agree_after (h : session.Agree key other) (operations : List Operation) :
    let own := operations.filter (session.concerns key)
    session.reports key operations = other.reports key own ∧ (session.after operations).Agree key (other.after own) := by
  induction operations generalizing session other with
  | nil => exact ⟨rfl, h⟩
  | cons operation rest ih =>
    dsimp only
    cases hconcerns : session.concerns key operation with
    | true =>
      obtain ⟨hnext, hreport⟩ := agree_next h hconcerns
      obtain ⟨hreports, hafter⟩ := ih hnext
      rw [concerns_next] at hreports hafter
      rw [List.filter_cons_of_pos hconcerns, reports, reports, if_pos hconcerns, if_pos (concerns_of_agree h hconcerns),
        hreport, hreports]
      exact ⟨rfl, hafter⟩
    | false =>
      -- The run of the type stays where it is, and still agrees with what the operation leaves.
      obtain ⟨hreports, hafter⟩ := ih ((agree_next_of_ne hconcerns).symm.trans h)
      rw [concerns_next] at hreports hafter
      rw [List.filter_cons_of_neg (ne_true_of_eq_false hconcerns), reports, if_neg (ne_true_of_eq_false hconcerns)]
      exact ⟨hreports, hafter⟩

theorem instance_after_of_notMem (session : Session) {operations : List Operation}
    (h : ∀ action, .act index action ∉ operations) :
    (session.after operations).instances[index]? = session.instances[index]? := by
  induction operations generalizing session with
  | nil => rfl
  | cons operation rest ih =>
    rw [after_cons, ih _ fun action hmem ↦ h action (List.mem_cons_of_mem _ hmem), instance_next_of_ne]
    exact fun action heq ↦ h action (heq ▸ List.mem_cons_self)

/-- Assumes: two runs from one session contain the same operations on each type in the same order. Then each operation
reports the same in both, be it an answer or an error, and no type can tell apart what they leave; all views end in the
same state. Operations on a view change no other view, of the same type or not. -/
theorem reports_eq_of_interleaved (start : Session) {operations others : List Operation}
    (hsame : ∀ key, operations.filter (start.concerns key) = others.filter (start.concerns key)) :
    (∀ key, start.reports key operations = start.reports key others ∧
      (start.after operations).Agree key (start.after others)) ∧
    (start.after operations).instances = (start.after others).instances ∧
    ∀ (session : Session) index run, (∀ action, .act index action ∉ run) →
      (session.after run).instances[index]? = session.instances[index]? := by
  have hruns : ∀ key, start.reports key operations = start.reports key others ∧
      (start.after operations).Agree key (start.after others) := by
    intro key
    obtain ⟨hreports, hafter⟩ := agree_after (.refl key start) operations
    obtain ⟨hothers, hafterOthers⟩ := agree_after (.refl key start) others
    rw [← hsame key] at hothers hafterOthers
    exact ⟨hreports.trans hothers.symm, hafter.trans hafterOthers.symm⟩
  exact ⟨hruns, instances_of_agree fun key ↦ (hruns key).2, fun session index run h ↦ instance_after_of_notMem session h⟩

/-- Pages by number, and tabs that are left to the view. -/
def browser : Session where
  registry := { settings := {} }
  types := [(.declared 0, ⟨⟨"Pages", [⟨"page", .integer, none, false⟩], [⟨":page", []⟩], none⟩, ⟨.anyExcept [], true⟩⟩),
    (.declared 1, ⟨⟨"Tabs", [⟨"tab", .string, none, true⟩], [⟨":tab", []⟩], none⟩, ⟨.anyExcept [], true⟩⟩)]
  instances := [⟨.declared 0, [], none⟩, ⟨.declared 1, [], none⟩, ⟨.declared 0, [], none⟩]

/-- A tab is missed before its producer is there and found afterwards, wherever pages are looked up in between. -/
theorem reports_eq_browser :
    let operations : List Operation := [.act 0 (.matchPath "x"), .act 1 (.matchPath "a"), .act 0 (.matchPath "7"),
      .act 1 (.setDynamic "tab" (Producer.constant "[a-z]")), .act 1 (.matchPath "a")]
    let others : List Operation := [.act 1 (.matchPath "a"), .act 1 (.setDynamic "tab" (Producer.constant "[a-z]")),
      .act 0 (.matchPath "x"), .act 1 (.matchPath "a"), .act 0 (.matchPath "7")]
    (∀ key, operations.filter (browser.concerns key) = others.filter (browser.concerns key)) ∧
      browser.reports (.declared 1) operations = browser.reports (.declared 1) others ∧
      (browser.after operations).instances = (browser.after others).instances ∧
      (browser.after others).instances = [⟨.declared 0, [("page", .integer 7)], some ":page"⟩,
        ⟨.declared 1, [("tab", .string "a")], some ":tab"⟩, ⟨.declared 0, [], none⟩] ∧
      (browser.after operations).instances[2]? = browser.instances[2]? := by
  intro operations others
  have hsame : ∀ key, operations.filter (browser.concerns key) = others.filter (browser.concerns key) := by
    intro key
    match key with
    | .declared 0 => rfl
    | .declared 1 => rfl
    | .declared (_ + 2) => rfl
    | .derived _ => rfl
  obtain ⟨hreports, hinstances, hkept⟩ := reports_eq_of_interleaved browser hsame
  refine ⟨hsame, (hreports (.declared 1)).1, hinstances, by decide +kernel, hkept browser 2 operations ?_⟩
  intro action hmem
  simp [operations] at hmem

end Session

end PathBinding
