import PathBinding.Proofs.DerivedViews
import PathBinding.Proofs.MixedSession

/-!
The recorded pattern. A match that goes through records the pattern of its winner, or that there is none, and one that
fails leaves the record alone, however far it has come (`Registry.matchPath_cases`, `Derivation.Derived.matchWith_cases`).
Beside that, a call of the setter can put something on record, though not on that of a view: the field of a parameter may be
kept for the pattern as well (`matched_next`). So what is on record is at any point the last of what has been put there
(`Recorded.after`, `matched_eq_last`), and where no field is shared this is the pattern of the last match.
-/

set_option autoImplicit false
set_option relaxedAutoImplicit false

namespace PathBinding

theorem View.matched_record_of_setEach {view written : View} {values : List (String × Option Value)}
    (h : View.access.setEach view values = (written, none)) (pattern? : Option String) :
    (written.record pattern?).matched = if view.type.records then pattern? else view.matched := by
  obtain ⟨htype, hmatched⟩ := View.setEach_kept h
  rw [View.matched_record, htype, hmatched]

/-- A selection that is written as a whole becomes the outcome and the record; otherwise the record stays. -/
theorem Mapping.apply_cases (mapping : Mapping) (selection : Selection) (view : View) :
    let applied := mapping.apply selection view
    (∃ outcome, applied.result = .ok outcome ∧ outcome.pattern? = selection.winner.map (·.raw) ∧
      applied.view.matched = if view.type.records then outcome.pattern? else view.matched) ∨
    ∃ e, applied.result = .error e ∧ applied.view.matched = view.matched := by
  dsimp only
  unfold Mapping.apply Mapping.applyWith
  cases selection.winner with
  | none =>
    dsimp only
    generalize hset : View.access.setEach view (mapping.parameters.map _) = done
    obtain ⟨written, _ | e⟩ := done
    · exact .inl ⟨_, rfl, rfl, View.matched_record_of_setEach hset none⟩
    · exact .inr ⟨e, rfl, (View.setEach_kept hset).2⟩
  | some winner =>
    dsimp only
    cases mapping.convert selection.captured with
    | error fault => exact .inr ⟨fault.2.2, rfl, rfl⟩
    | ok values =>
      dsimp only
      rcases hset : View.access.setEach view (writes mapping.parameters values) with ⟨written, _ | e⟩
      · exact .inl ⟨_, rfl, rfl, View.matched_record_of_setEach hset (some winner.raw)⟩
      · exact .inr ⟨e, rfl, (View.setEach_kept hset).2⟩

/-- A match that goes through answers with the pattern of its winner and records it if views of the type do so, and one
that fails keeps the record. -/
theorem Registry.matchPath_cases (registry : Registry) (key : TypeKey) (declaration : Declaration) (view : View)
    (path : String) :
    let found := registry.matchPath key declaration view path
    (∃ mapping regex outcome, registry.WorksWith key declaration view mapping regex ∧ found.2.result = .ok outcome ∧
      outcome.pattern? = (mapping.select regex path).winner.map (·.raw) ∧
      found.1.matched = if view.type.records then outcome.pattern? else view.matched) ∨
    ∃ e, found.2.result = .error e ∧ found.1.matched = view.matched := by
  dsimp only
  rcases registry.worksWith_or_failsUnwritten View.access key declaration view path with
    ⟨mapping, regex, hworks⟩ | ⟨e, -, hview, hresult⟩
  · have hworks : registry.WorksWith key declaration view mapping regex := hworks
    obtain ⟨hview, hresult⟩ := hworks.matchPath path
    rw [hview, hresult]
    rcases mapping.apply_cases (mapping.select regex path) view with ⟨outcome, hok, hpattern, hmatched⟩ | ⟨e, herror, hmatched⟩
    · exact .inl ⟨mapping, regex, outcome, hworks, hok, hpattern, hmatched⟩
    · exact .inr ⟨e, herror, hmatched⟩
  · exact .inr ⟨e, hresult, congrArg View.matched hview⟩

namespace MixedSession

open PathBinding.Derivation

/-! ### What is put on record -/

variable {α : Type}

/-- The outcome, if what has been done is a match that has gone through. -/
def Step.outcome? (step : Step α) : Option Outcome :=
  match step.answer with
  | .ok (.outcome outcome) => some outcome
  | _ => none

/-- What an action puts on record at a place. A match that goes through puts the pattern of its winner there, or none on a
miss, and a call of the setter what it overwrites the pattern with. -/
def putAt? (mixed : MixedSession α) (place : Place) : Action → Option (Option String)
  | .matchPath path => ((mixed.step? (.act place (.matchPath path))).bind Step.outcome?).map Outcome.pattern?
  | .set name value? =>
    match place with
    | .view _ => none
    | .record index => (mixed.record? index).bind fun (_, derived) ↦ derived.overwrites? mixed.kindOf name value?
  | _ => none

/-- What an operation puts on record at a place. -/
def put? (mixed : MixedSession α) (place : Place) : Operation → Option (Option String)
  | .act own action => if own = place then mixed.putAt? place action else none
  | .redeclare .. => none

/-- What is put on record at a place in a run. -/
def puts (mixed : MixedSession α) (place : Place) : List Operation → List (Option String)
  | [] => []
  | operation :: rest => (mixed.put? place operation).toList ++ (mixed.next operation).puts place rest

variable {mixed start : MixedSession α} {place : Place} {index : Nat} {inst : Instance} {spec : TypeSpec}
  {holding : Holding α} {derived : Derived} {key : TypeKey} {declaration : Declaration} {view : View}
  {operation : Operation} {history : List (Option String)} {pattern? : Option String}

theorem Step.outcome?_of_answer {step : Step α} {result : Except Error Outcome} (h : step.answer = result.map .outcome) :
    step.outcome? = result.toOption := by
  rw [outcome?, h]
  cases result <;> rfl

theorem putAt?_view (h : mixed.session.view? index = some (inst, spec, view)) (path : String) :
    mixed.putAt? (.view index) (.matchPath path) =
      (mixed.session.registry.matchPath inst.type spec.declaration view path).2.result.toOption.map Outcome.pattern? := by
  rw [putAt?, step?, Session.step?_act h, Option.map_some, Option.bind_some]
  exact congrArg (Option.map Outcome.pattern?) (Step.outcome?_of_answer rfl)

theorem putAt?_record (h : mixed.record? index = some (holding, derived)) (path : String) :
    mixed.putAt? (.record index) (.matchPath path) = (mixed.session.registry.matchWith (derived.access mixed.kindOf)
      holding.type (derived.declaration mixed.kindOf) holding.record path).2.result.toOption.map Outcome.pattern? := by
  rw [putAt?, step?_record h, Option.bind_some]
  exact congrArg (Option.map Outcome.pattern?) (Step.outcome?_of_answer rfl)

/-- What is on record of a view behind an action on it. -/
theorem matched_view (h : mixed.session.view? index = some (inst, spec, view)) (hrecords : view.type.records = true)
    (action : Action) : (mixed.session.viewAfter inst spec view action).matched =
      (mixed.putAt? (.view index) action).getD view.matched := by
  cases action with
  | matchPath path =>
    rw [putAt?_view h]
    rcases mixed.session.registry.matchPath_cases inst.type spec.declaration view path with
      ⟨_, _, outcome, -, hresult, -, hmatched⟩ | ⟨e, hresult, hmatched⟩
    · rw [hresult]
      exact hmatched.trans (if_pos hrecords)
    · rw [hresult]
      exact hmatched
  | set name value? =>
    rw [Session.viewAfter, Session.actWith]
    dsimp only [View.access]
    rw [View.set_eq]
    cases view.type.refusal? name value? <;> rfl
  | _ => rfl

/-- What is on record of a record behind an action on it. -/
theorem matched_record (hbound : mixed.IsBound) (h : mixed.record? index = some (holding, derived))
    (hrecords : derived.matched?.isSome = true) (action : Action) :
    derived.matched (mixed.session.actWith (derived.access mixed.kindOf) holding.type (derived.declaration mixed.kindOf)
      holding.record action).1 = (mixed.putAt? (.record index) action).getD (derived.matched holding.record) := by
  obtain ⟨-, hderived⟩ := record?_eq_some.mp h
  cases action with
  | matchPath path =>
    rw [putAt?_record h]
    rcases derived.matchWith_cases (fun _ hmapping ↦ ⟨_, hbound.exists_build hderived hmapping⟩) holding.record path with
      ⟨hsame, e, hresult⟩ | ⟨mapping, regex, -, hresult, hmatched⟩
    · rw [hresult]
      exact congrArg derived.matched hsame
    · rw [hresult]
      dsimp only [Except.toOption, Option.map_some, Option.getD_some]
      rw [mapping.pattern?_outcome]
      exact hmatched hrecords
  | set name value? =>
    rw [putAt?, h, Session.actWith]
    dsimp only [Option.bind_some]
    rw [← derived.matched_set mixed.kindOf holding.record name value?]
    rcases derived.set_cases mixed.kindOf holding.record name value? with
      ⟨-, hset⟩ | ⟨_, _, -, -, -, hset⟩ | ⟨_, -, -, hset⟩ <;>
    · dsimp only [Derived.access]
      rw [hset]
  | _ => rfl

/-- What an operation puts on record at a place is there behind it, and otherwise there is what was there before. -/
theorem matched_next (hbound : mixed.IsBound) (h : mixed.shown? place = some (key, declaration, view))
    (hrecords : view.type.records = true) (operation : Operation) : ∃ declared left,
      (mixed.next operation).shown? place = some (key, declared, left) ∧
        left.matched = (mixed.put? place operation).getD view.matched ∧
        (left.type = view.type ∨ ∃ spec, operation = .redeclare key spec ∧ left.type = spec.viewType) := by
  cases operation with
  | redeclare type spec =>
    obtain ⟨declared, left, hleft, hmatched, htype⟩ := shown?_redeclare h type spec
    exact ⟨declared, left, hleft, hmatched, htype.imp_right fun ⟨heq, hspec⟩ ↦ ⟨spec, heq ▸ rfl, hspec⟩⟩
  | act own action =>
    by_cases hplace : own = place
    · subst hplace
      rw [put?, if_pos rfl]
      cases own with
      | view index =>
        obtain ⟨inst, spec, hview, rfl, rfl⟩ := shown?_view.mp h
        obtain ⟨left, hleft, htype, hmatched⟩ := shown?_act_view hview action
        obtain ⟨-, -, hshown⟩ := Session.view?_eq_some.mp hview
        exact ⟨_, left, hleft, hmatched.trans (matched_view hview hrecords action), .inl (htype.trans (hshown ▸ rfl))⟩
      | record index =>
        obtain ⟨holding, derived, hrecord, rfl, rfl, rfl⟩ := shown?_record.mp h
        exact ⟨_, _, shown?_act_record hrecord action, matched_record hbound hrecord hrecords action, .inl rfl⟩
    · rw [put?, if_neg hplace]
      exact ⟨declaration, view, (shown?_next_of_ne hplace mixed action).trans h, rfl, .inl rfl⟩

/-- The pattern that a match puts on record is that of the winner that its expression selects. -/
theorem worksWith_of_putAt? (hbound : mixed.IsBound) (h : mixed.shown? place = some (key, declaration, view))
    {path : String} (hput : mixed.putAt? place (.matchPath path) = some pattern?) : ∃ mapping regex,
      mixed.session.registry.WorksWith key declaration view mapping regex ∧
        pattern? = (mapping.select regex path).winner.map (·.raw) := by
  cases place with
  | view index =>
    obtain ⟨inst, spec, hview, rfl, rfl⟩ := shown?_view.mp h
    rw [putAt?_view hview] at hput
    rcases mixed.session.registry.matchPath_cases inst.type spec.declaration view path with
      ⟨mapping, regex, outcome, hworks, hresult, hpattern, -⟩ | ⟨e, hresult, -⟩
    · rw [hresult] at hput
      exact ⟨mapping, regex, hworks, (Option.some.inj hput).symm.trans hpattern⟩
    · rw [hresult] at hput
      cases hput
  | record index =>
    obtain ⟨holding, derived, hrecord, rfl, rfl, rfl⟩ := shown?_record.mp h
    obtain ⟨-, hderived⟩ := record?_eq_some.mp hrecord
    rw [putAt?_record hrecord] at hput
    rcases derived.matchWith_cases (fun _ hmapping ↦ ⟨_, hbound.exists_build hderived hmapping⟩) holding.record path with
      ⟨-, e, hresult⟩ | ⟨mapping, regex, hworks, hresult, -⟩
    · rw [hresult] at hput
      cases hput
    · rw [hresult] at hput
      exact ⟨mapping, regex, hworks, (Option.some.inj hput).symm.trans (mapping.pattern?_outcome _)⟩

/-! ### Runs -/

/-- There is something at a place that records patterns, and what is on record there is the last of what has been put. -/
structure Recorded (mixed : MixedSession α) (place : Place) (key : TypeKey) (history : List (Option String)) : Prop where
  bound : mixed.IsBound
  shown : ∃ declaration view, mixed.shown? place = some (key, declaration, view) ∧ view.type.records = true ∧
    view.matched = history.getLast?.join

namespace Recorded

theorem next (h : mixed.Recorded place key history)
    (hkept : ∀ spec, operation = .redeclare key spec → spec.viewType.records = true) :
    (mixed.next operation).Recorded place key (history ++ (mixed.put? place operation).toList) := by
  obtain ⟨declaration, view, hshown, hrecords, hmatched⟩ := h.shown
  obtain ⟨declared, left, hleft, hput, htype⟩ := matched_next h.bound hshown hrecords operation
  refine ⟨h.bound.next operation, declared, left, hleft, ?_, hput.trans ?_⟩
  -- Only where the type is declared anew could its views stop to record.
  · rcases htype with htype | ⟨spec, heq, htype⟩
    · rw [htype, hrecords]
    · rw [htype, hkept spec heq]
  · cases mixed.put? place operation with
    | none =>
      rw [Option.toList_none, List.append_nil]
      exact hmatched
    | some pattern? =>
      rw [Option.toList_some, List.getLast?_concat]
      rfl

theorem after (h : mixed.Recorded place key history) {operations : List Operation}
    (hkept : ∀ spec, .redeclare key spec ∈ operations → spec.viewType.records = true) :
    (mixed.after operations).Recorded place key (history ++ mixed.puts place operations) := by
  induction operations generalizing mixed history with
  | nil =>
    rw [puts, List.append_nil]
    exact h
  | cons operation rest ih =>
    have hnext := h.next fun spec heq ↦ hkept spec (heq ▸ List.mem_cons_self)
    rw [puts, ← List.append_assoc]
    exact ih hnext fun spec hmem ↦ hkept spec (List.mem_cons_of_mem _ hmem)

end Recorded

theorem step?_matched (h : mixed.shown? place = some (key, declaration, view)) :
    mixed.step? (.act place .matched) = some ⟨mixed, [], .ok (.pattern view.matched)⟩ := by
  cases place with
  | view index =>
    obtain ⟨inst, spec, hview, -⟩ := shown?_view.mp h
    have hact : mixed.session.act index inst spec view .matched = ⟨mixed.session, [], .ok (.pattern view.matched)⟩ := by
      rw [Session.act, Session.actWith]
      dsimp only [Session.withView, View.access]
      rw [Session.withView_self hview]
    rw [step?, Session.step?_act hview, hact]
    rfl
  | record index =>
    obtain ⟨holding, derived, hrecord, -, -, rfl⟩ := shown?_record.mp h
    obtain ⟨hindex, hholding⟩ := List.getElem?_eq_some_iff.mp (record?_eq_some.mp hrecord).1
    have hrecords : mixed.records.set index holding = mixed.records := by
      rw [← hholding]
      exact List.set_getElem_self hindex
    rw [step?_record hrecord, actOn, Session.actWith]
    dsimp only [Derived.access]
    rw [hrecords]

/-- Assumes: structures have keys of their own, and a view or a record begins without a recorded pattern and records
patterns, also where its type is declared anew. Behind any run the pattern on record is the last that has been put there, if
there is one. What an operation puts there is the pattern of the winner that the expression of a match selects, or, for a
record, the text that is given to a parameter whose field is kept for the pattern as well. All other operations keep the
record. -/
theorem matched_eq_last (hbound : start.IsBound) (hshown : start.shown? place = some (key, declaration, view))
    (hnone : view.matched = none) (hrecords : view.type.records = true) {operations : List Operation}
    (hkept : ∀ spec, .redeclare key spec ∈ operations → spec.viewType.records = true) :
    let session := start.after operations
    session.step? (.act place .matched) =
      some ⟨session, [], .ok (.pattern (start.puts place operations).getLast?.join)⟩ ∧
    (∀ operation pattern?, session.put? place operation = some pattern? →
      (∃ path declared shown mapping regex, operation = .act place (.matchPath path) ∧
        session.shown? place = some (key, declared, shown) ∧
        session.session.registry.WorksWith key declared shown mapping regex ∧
        pattern? = (mapping.select regex path).winner.map (·.raw)) ∨
      ∃ index name value? holding derived p, place = .record index ∧ operation = .act place (.set name value?) ∧
        session.record? index = some (holding, derived) ∧ derived.find? name = some p ∧
        derived.matched? = some p.field ∧ (∀ value, value? = some value → value.kind = session.kindOf p.type) ∧
        pattern? = (Content.slot value? : Content Unit).text?) ∧
    ∀ operation, session.put? place operation = none →
      ((session.next operation).shown? place).map (·.2.2.matched) = (session.shown? place).map (·.2.2.matched) := by
  intro session
  have hstart : start.Recorded place key [] := ⟨hbound, declaration, view, hshown, hrecords, hnone⟩
  obtain ⟨hnow, declared, shown, hshownNow, hrecordsNow, hmatched⟩ := hstart.after hkept
  refine ⟨?_, fun operation pattern? hput ↦ ?_, fun operation hput ↦ ?_⟩
  · rw [step?_matched hshownNow, hmatched, List.nil_append]
  · cases operation with
    | redeclare type spec => cases hput
    | act own action =>
      obtain ⟨rfl, hput⟩ := Option.ite_none_right_eq_some.mp hput
      cases action with
      | matchPath path =>
        obtain ⟨mapping, regex, hworks, hpattern⟩ := worksWith_of_putAt? hnow hshownNow hput
        exact .inl ⟨path, declared, shown, mapping, regex, rfl, hshownNow, hworks, hpattern⟩
      | set name value? =>
        cases own with
        | view index => cases hput
        | record index =>
          obtain ⟨⟨holding, derived⟩, hrecord, hput⟩ := Option.bind_eq_some_iff.mp hput
          obtain ⟨p, hfind, hfield, hkind, htext⟩ := Derived.overwrites?_eq_some_iff.mp hput
          exact .inr ⟨index, name, value?, holding, derived, p, rfl, rfl, hrecord, hfind, hfield, hkind, htext⟩
      | _ => cases hput
  · obtain ⟨_, left, hleft, hkeeps, -⟩ := matched_next hnow hshownNow hrecordsNow operation
    rw [hput] at hkeeps
    have hshownNow : session.shown? place = some (key, declared, shown) := hshownNow
    have hleft : (session.next operation).shown? place = some (key, _, left) := hleft
    rw [hleft, hshownNow]
    exact congrArg some hkeeps

/-- Threads by number, as long as their number may be. -/
def threads : TypeSpec where
  declaration := ⟨"Threads", [⟨"id", .integer, some "[0-9]+", false⟩], [⟨"thread/:id", []⟩], none⟩
  viewType := ⟨.anyExcept [], true⟩

/-- A view of a thread, and a page whose title is kept in the field of the matched pattern. -/
def library : MixedSession Unit where
  session := ⟨{ settings := {} }, [(.declared 0, threads)], [⟨.declared 0, [], none⟩]⟩
  kindOf := Kind.ofTypeName
  bindings := [(.derived "Page", Derived.pages)]
  records := [⟨.derived "Page", ⟨fun _ ↦ .slot none⟩⟩]

/-- The number of the second thread cannot be read, and later declarations and values do not count. For the page, the title
that it has been given does, and the number that it cannot take does not. -/
theorem matched_eq_last_library :
    let operations : List Operation := [.act (.view 0) (.matchPath "thread/7"), .act (.record 0) (.matchPath "Preface"),
      .act (.view 0) (.matchPath "thread/99999999999"),
      .redeclare (.declared 0) { threads with declaration := { threads.declaration with patterns := [] } },
      .act (.record 0) (.set "title" (some (.string "Index"))), .act (.view 0) (.set "id" none),
      .act (.record 0) (.set "title" (some (.integer 4)))]
    let session := library.after operations
    library.IsBound ∧ session.step? (.act (.view 0) .matched) = some ⟨session, [], .ok (.pattern (some "thread/:id"))⟩ ∧
      session.step? (.act (.record 0) .matched) = some ⟨session, [], .ok (.pattern (some "Index"))⟩ := by
  intro operations session
  have hbound : library.IsBound := by
    refine .of_isFresh ⟨rfl, rfl⟩ fun key derived hderived ↦ ?_
    cases key with
    | declared index => cases hderived
    | derived name => rfl
  have hputs : library.puts (.view 0) operations = [some "thread/:id"] ∧
      library.puts (.record 0) operations = [some ":title", some "Index"] := by
    decide +kernel
  have hview : library.shown? (.view 0) = some (.declared 0, threads.declaration, ⟨threads.viewType, [], none⟩) := rfl
  have hrecord : library.shown? (.record 0) = some (.derived "Page", Derived.pages.declaration Kind.ofTypeName,
      ⟨(Derived.pages.typeSpec Kind.ofTypeName).viewType, [], none⟩) := rfl
  have hkept : ∀ key spec, .redeclare key spec ∈ operations → spec.viewType.records = true := by
    intro key spec hmem
    simp only [operations, List.mem_cons, reduceCtorEq, Operation.redeclare.injEq, List.not_mem_nil, false_or,
      or_false] at hmem
    rw [hmem.2]
    rfl
  obtain ⟨hthread, -, -⟩ := matched_eq_last hbound hview rfl rfl (hkept _)
  obtain ⟨hpage, -, -⟩ := matched_eq_last hbound hrecord rfl rfl (hkept _)
  rw [hputs.1] at hthread
  rw [hputs.2] at hpage
  exact ⟨hbound, hthread, hpage⟩

/-- The only match has gone through with the pattern of a title, and then a title takes its place. -/
theorem matched_overwritten_library :
    let session := library.after [.act (.record 0) (.matchPath "Preface"),
      .act (.record 0) (.set "title" (some (.string "Index")))]
    (library.shown? (.record 0)).map (fun shown ↦ (shown.2.2.type.records, shown.2.2.matched)) = some (true, none) ∧
      (library.step? (.act (.record 0) (.matchPath "Preface"))).bind Step.outcome? = some (.matched ":title") ∧
      session.step? (.act (.record 0) .matched) = some ⟨session, [], .ok (.pattern (some "Index"))⟩ := by
  intro session
  have hmatched : (session.shown? (.record 0)).map (·.2.2.matched) = some (some "Index") := by decide +kernel
  obtain ⟨⟨key, declaration, view⟩, hshown, hview⟩ := Option.map_eq_some_iff.mp hmatched
  have hview : view.matched = some "Index" := hview
  exact ⟨by decide, by decide +kernel, by rw [step?_matched hshown, hview]⟩

end MixedSession

end PathBinding
