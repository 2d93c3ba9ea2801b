import PathBinding.Derivation.Record
import PathBinding.Proofs.Findings
import PathBinding.Proofs.View

/-!
Accessors of derived bindings. What a call of the setter does is told once, in three cases (`set_cases`). Parameters are
kept in fields of their own, so a call that goes through changes what the getter gives for one name only
(`get_set_cases`), and after any calls the getter gives for each name the value of the last call for it that has gone
through (`get_setEach`). Nothing but the field of the parameter is written, which may be that of the matched pattern as
well (`accessor_laws`); a call puts something on record in no other way (`matched_set`).
-/

set_option autoImplicit false
set_option relaxedAutoImplicit false

namespace PathBinding.Derivation

variable {α : Type} {record : Record α} {value? : Option Value}

@[simp] theorem Record.put_self (record : Record α) (field : String) (value? : Option Value) :
    (record.put field value?).content field = .slot value? :=
  if_pos rfl

theorem Record.put_of_ne {field other : String} (h : other ≠ field) :
    (record.put field value?).content other = record.content other :=
  if_neg h

namespace Derived

variable {derived : Derived} {kindOf : String → Kind} {name : String} {p : Parameter}

/-! ### Calls of the setter -/

/-- The binding has a parameter of the name, and the value is one of its kind or there is none. -/
def Takes (derived : Derived) (kindOf : String → Kind) (name : String) (value? : Option Value) : Prop :=
  ∃ p ∈ derived.parameters, p.name = name ∧ ∀ value, value? = some value → value.kind = kindOf p.type

theorem mem_of_find? (h : derived.find? name = some p) : p ∈ derived.parameters ∧ p.name = name :=
  ⟨List.mem_of_find?_eq_some h, eq_of_beq (List.find?_some (p := fun q : Parameter ↦ q.name == name) h)⟩

theorem find?_eq_none_iff : derived.find? name = none ↔ ∀ p ∈ derived.parameters, p.name ≠ name := by
  simp [find?]

/-- Assumes: parameters of different names. The parameter that a name reaches is the only one of the name. -/
theorem eq_of_find? (hnames : (derived.parameters.map (·.name)).Nodup) (h : derived.find? name = some p) {q : Parameter}
    (hq : q ∈ derived.parameters) (hname : q.name = name) : q = p := by
  obtain ⟨hp, hown⟩ := mem_of_find? h
  exact List.inj_on_of_nodup_map hnames hq hp (hname.trans hown.symm)

/-- What a call of the setter does: nothing for an unknown name or a value of another kind, and otherwise it writes the
field of the parameter. -/
theorem set_cases (derived : Derived) (kindOf : String → Kind) (record : Record α) (name : String)
    (value? : Option Value) :
    (derived.find? name = none ∧ derived.set kindOf record name value? =
      (record, .error (.configuration (.unknownParameter name derived.owner)))) ∨
    (∃ p value, derived.find? name = some p ∧ value? = some value ∧ value.kind ≠ kindOf p.type ∧
      derived.set kindOf record name value? =
        (record, .error (.coercion name value.render (.mismatch (kindOf p.type).typeName value.kind.typeName)))) ∨
    ∃ p, derived.find? name = some p ∧ (∀ value, value? = some value → value.kind = kindOf p.type) ∧
      derived.set kindOf record name value? = (record.put p.field value?, .ok ()) := by
  unfold set
  cases derived.find? name with
  | none => exact .inl ⟨rfl, rfl⟩
  | some p =>
    by_cases hkind : ∀ value, value? = some value → value.kind = kindOf p.type
    · refine .inr (.inr ⟨p, rfl, hkind, ?_⟩)
      dsimp only
      rw [Kind.assign_of_kind hkind]
    · push Not at hkind
      obtain ⟨value, rfl, hkind⟩ := hkind
      refine .inr (.inl ⟨p, value, rfl, rfl, hkind, ?_⟩)
      dsimp only
      rw [Kind.assign, if_neg hkind]

/-! ### What the getters give -/

/-- Assumes: parameters in different fields. What is written to the field of a parameter is given for its name and for no
other. -/
theorem get_put (hfields : (derived.parameters.map (·.field)).Nodup) (hfind : derived.find? name = some p)
    (record : Record α) (value? : Option Value) (other : String) :
    derived.get (record.put p.field value?) other = if other = name then value? else derived.get record other := by
  unfold get
  by_cases hother : other = name
  · rw [if_pos hother, hother, hfind, Option.bind_some, Record.put_self]
    rfl
  rw [if_neg hother]
  cases hq : derived.find? other with
  | none => rfl
  | some q =>
    -- Another name reaches another parameter, and this one has a field of its own.
    obtain ⟨hmem, hname⟩ := mem_of_find? hfind
    obtain ⟨hmem', hname'⟩ := mem_of_find? hq
    have hfield : q.field ≠ p.field := by
      intro heq
      obtain rfl := List.inj_on_of_nodup_map hfields hmem' hmem heq
      exact hother (hname'.symm.trans hname)
    rw [Option.bind_some, Option.bind_some, Record.put_of_ne hfield]

/-- Assumes: parameters in different fields. A call that goes through changes what is given for its name, and any other
changes nothing. -/
theorem get_set_cases (hfields : (derived.parameters.map (·.field)).Nodup) (kindOf : String → Kind) (record : Record α)
    (name : String) (value? : Option Value) :
    (∃ e, derived.set kindOf record name value? = (record, .error e)) ∨
    ∃ next, derived.set kindOf record name value? = (next, .ok ()) ∧
      ∀ other, derived.get next other = if other = name then value? else derived.get record other := by
  rcases set_cases derived kindOf record name value? with ⟨-, hset⟩ | ⟨p, value, -, -, -, hset⟩ | ⟨p, hfind, -, hset⟩
  · exact .inl ⟨_, hset⟩
  · exact .inl ⟨_, hset⟩
  · exact .inr ⟨_, hset, get_put hfields hfind record value?⟩

/-- What is shown of a record gives the same for each name. -/
theorem get_shown (derived : Derived) (kindOf : String → Kind) (record : Record α) (name : String) :
    (derived.shown kindOf record).get name = derived.get record name := by
  have hvalues (parameters : List Parameter) : (parameters.filterMap fun p ↦
      (derived.get record p.name).map (p.name, ·)).lookup name =
        if name ∈ parameters.map (·.name) then derived.get record name else none := by
    induction parameters with
    | nil => rfl
    | cons p rest ih =>
      rw [List.filterMap_cons, List.map_cons]
      by_cases hname : name = p.name
      · rw [if_pos (hname ▸ List.mem_cons_self), ← hname]
        cases hvalue : derived.get record name with
        | none =>
          dsimp only [Option.map_none]
          rw [ih, hvalue, ite_self]
        | some value => exact List.lookup_cons_self
      · simp only [List.mem_cons, hname, false_or]
        rw [← ih]
        cases derived.get record p.name with
        | none => rfl
        | some value =>
          dsimp only [Option.map_some]
          rw [List.lookup_cons, beq_eq_false_iff_ne.mpr hname]
  refine (hvalues derived.parameters).trans (ite_eq_left_iff.mpr fun hname ↦ ?_)
  have hnone : derived.find? name = none := find?_eq_none_iff.mpr fun p hp heq ↦ hname (heq ▸ List.mem_map_of_mem hp)
  rw [get, hnone, Option.bind_none]

/-! ### What is on record -/

theorem text?_of_string (h : ∀ value, value? = some value → value.kind = .string) :
    (Content.slot value? : Content α).text? = value?.map Value.render := by
  cases value? with
  | none => rfl
  | some value =>
    cases value with
    | string text => rfl
    | _ => cases h _ rfl

/-- What is written to the field for the matched pattern is taken for the pattern if it is text. -/
theorem matched_put (derived : Derived) (record : Record α) (field : String) (value? : Option Value) :
    derived.matched (record.put field value?) =
      if derived.matched? = some field then (Content.slot value? : Content α).text? else derived.matched record := by
  unfold matched
  cases derived.matched? with
  | none => rfl
  | some own =>
    rw [Option.bind_some, Option.bind_some]
    by_cases hown : own = field
    · rw [hown, if_pos rfl, Record.put_self]
    · rw [if_neg fun h ↦ hown (Option.some.inj h), Record.put_of_ne hown]

theorem matched_setMatched (derived : Derived) (record : Record α) (pattern? : Option String) :
    derived.matched (derived.setMatched record pattern?) =
      if derived.matched?.isSome then pattern? else derived.matched record := by
  unfold setMatched
  cases hmatched : derived.matched? with
  | none => rfl
  | some field =>
    dsimp only [Option.isSome_some]
    rw [matched_put, if_pos hmatched]
    cases pattern? <;> rfl

/-- What a call of the setter puts in the place of the pattern on record. It does so only if it goes through, and for a
parameter whose field is kept for the pattern as well. -/
def overwrites? (derived : Derived) (kindOf : String → Kind) (name : String) (value? : Option Value) :
    Option (Option String) := do
  let p ← derived.find? name
  let slot ← ((kindOf p.type).assign name value?).toOption
  if derived.matched? = some p.field then some (Content.slot slot : Content Unit).text? else none

theorem overwrites?_eq_some_iff {text? : Option String} : derived.overwrites? kindOf name value? = some text? ↔
    ∃ p, derived.find? name = some p ∧ derived.matched? = some p.field ∧
      (∀ value, value? = some value → value.kind = kindOf p.type) ∧ text? = (Content.slot value? : Content Unit).text? := by
  unfold overwrites?
  cases derived.find? name with
  | none => simp
  | some p =>
    simp only [Option.bind_eq_bind, Option.bind_some, Option.some.injEq, exists_eq_left']
    by_cases hkind : ∀ value, value? = some value → value.kind = kindOf p.type
    · rw [Kind.assign_of_kind hkind]
      simp only [Except.toOption, Option.bind_some, Option.ite_none_right_eq_some, Option.some.injEq]
      exact and_congr_right fun _ ↦ ⟨fun h ↦ ⟨hkind, h.symm⟩, fun h ↦ h.2.symm⟩
    · refine iff_of_false ?_ fun h ↦ hkind h.2.1
      push Not at hkind
      obtain ⟨value, rfl, hkind⟩ := hkind
      rw [Kind.assign, if_neg hkind]
      simp [Except.toOption]

/-- A call of the setter changes the record of the pattern in no other way. -/
theorem matched_set (derived : Derived) (kindOf : String → Kind) (record : Record α) (name : String)
    (value? : Option Value) : derived.matched (derived.set kindOf record name value?).1 =
      (derived.overwrites? kindOf name value?).getD (derived.matched record) := by
  unfold overwrites?
  rcases set_cases derived kindOf record name value? with
    ⟨hfind, hset⟩ | ⟨p, value, hfind, rfl, hkind, hset⟩ | ⟨p, hfind, hkind, hset⟩
  · rw [hset, hfind]
    rfl
  · rw [hset, hfind, Option.bind_eq_bind, Option.bind_some, Kind.assign, if_neg hkind]
    rfl
  · rw [hset, hfind, matched_put, Option.bind_eq_bind, Option.bind_some, Kind.assign_of_kind hkind]
    dsimp only [Except.toOption, Option.bind_eq_bind, Option.bind_some]
    split <;> rfl

/-! ### Calls in turn -/

theorem setEach_error {e : Error} (h : derived.set kindOf record name value? = (record, .error e))
    (rest : List (String × Option Value)) :
    derived.setEach kindOf record ((name, value?) :: rest) = derived.setEach kindOf record rest := by
  rw [setEach, h]

theorem setEach_ok {next : Record α} (h : derived.set kindOf record name value? = (next, .ok ()))
    (rest : List (String × Option Value)) : derived.setEach kindOf record ((name, value?) :: rest) =
      ((derived.setEach kindOf next rest).1, (name, value?) :: (derived.setEach kindOf next rest).2) := by
  rw [setEach, h]

/-- The value of the last of some calls for a name, or else another one. -/
def lastFor (name : String) (calls : List (String × Option Value)) (before : Option Value) : Option Value :=
  ((calls.filter (·.1 = name)).getLast?.map Prod.snd).getD before

theorem lastFor_cons (name own : String) (value? before : Option Value) (calls : List (String × Option Value)) :
    lastFor name ((own, value?) :: calls) before = lastFor name calls (if own = name then value? else before) := by
  unfold lastFor
  by_cases hown : own = name
  · rw [if_pos hown, List.filter_cons_of_pos (by simpa using hown), List.getLast?_cons]
    cases (calls.filter (·.1 = name)).getLast? <;> rfl
  · rw [if_neg hown, List.filter_cons_of_neg (by simpa using hown)]

/-- Assumes: parameters in different fields. After calls in turn, the getter gives the value of the last of them for its
name that has gone through. -/
theorem get_setEach (hfields : (derived.parameters.map (·.field)).Nodup) (kindOf : String → Kind) (record : Record α)
    (calls : List (String × Option Value)) (name : String) :
    derived.get (derived.setEach kindOf record calls).1 name =
      lastFor name (derived.setEach kindOf record calls).2 (derived.get record name) := by
  induction calls generalizing record with
  | nil => rfl
  | cons call rest ih =>
    obtain ⟨own, value?⟩ := call
    rcases get_set_cases hfields kindOf record own value? with ⟨e, herror⟩ | ⟨next, hnext, hget⟩
    · rw [setEach_error herror, ih]
    · rw [setEach_ok hnext, lastFor_cons, ih, hget]
      simp only [eq_comm]

/-! ### The laws -/

/-- Assumes: a structure with different fields has a derived binding, of which no two parameters have one name. After any
calls, a further call goes through exactly if it is for a parameter and its value, if there is one, is of the kind of the
parameter. Then the getter gives this value for the name and what it gave before for any other, and fields that declare no
parameter stay as they were. The matched pattern is still on record, unless the field of the parameter is kept for it as
well, where the text that has been given takes its place. A call that does not go through changes nothing, and its error
tells that the name is unknown or the value of another kind. In all, the getter gives for each name the value of the last
call for it that has gone through. -/
theorem accessor_laws {source : Structure} {derived : Derived} (hderive : source.derive = .ok derived)
    (hdistinct : (source.fields.map (·.name)).Nodup) (hnames : (derived.parameters.map (·.name)).Nodup)
    (kindOf : String → Kind) (start : Record α) (calls : List (String × Option Value)) :
    let run := derived.setEach kindOf start calls
    (∀ name value?,
      let call := derived.set kindOf run.1 name value?
      (call.2 = .ok () ↔ derived.Takes kindOf name value?) ∧
      (call.2 = .ok () →
        derived.get call.1 name = value? ∧
        (∀ other, other ≠ name → derived.get call.1 other = derived.get run.1 other) ∧
        (∀ field ∈ source.fields, field.parameter? = none → call.1.content field.name = run.1.content field.name) ∧
        ∀ p ∈ derived.parameters, p.name = name →
          (derived.matched? ≠ some p.field → derived.matched call.1 = derived.matched run.1) ∧
          (derived.matched? = some p.field → kindOf p.type = .string →
            derived.matched call.1 = value?.map Value.render)) ∧
      (call.2 ≠ .ok () → call.1 = run.1 ∧
        ((∀ p ∈ derived.parameters, p.name ≠ name) →
          call.2 = .error (.configuration (.unknownParameter name derived.owner))) ∧
        ∀ p ∈ derived.parameters, p.name = name → ∃ value, value? = some value ∧ value.kind ≠ kindOf p.type ∧
          call.2 = .error (.coercion name value.render (.mismatch (kindOf p.type).typeName value.kind.typeName)))) ∧
    ∀ name, derived.get run.1 name = lastFor name run.2 (derived.get start name) := by
  intro run
  have hfields := Structure.nodup_fields_of_derive hderive hdistinct
  refine ⟨fun name value? ↦ ?_, get_setEach hfields kindOf start calls⟩
  intro call
  rcases set_cases derived kindOf run.1 name value? with
    ⟨hfind, hset⟩ | ⟨p, value, hfind, rfl, hkind, hset⟩ | ⟨p, hfind, hkind, hset⟩
  · -- The name is unknown.
    have hunknown := find?_eq_none_iff.mp hfind
    have hcall : call = _ := hset
    rw [hcall]
    refine ⟨iff_of_false nofun ?_, nofun, fun _ ↦ ⟨rfl, fun _ ↦ rfl, fun p hp hname ↦ absurd hname (hunknown p hp)⟩⟩
    rintro ⟨p, hp, hname, -⟩
    exact hunknown p hp hname
  · -- The value is of another kind.
    obtain ⟨hp, hname⟩ := mem_of_find? hfind
    have hcall : call = _ := hset
    rw [hcall]
    refine ⟨iff_of_false nofun ?_, nofun, fun _ ↦ ⟨rfl, fun hunknown ↦ absurd hname (hunknown p hp), ?_⟩⟩
    · rintro ⟨q, hq, hown, htakes⟩
      rw [eq_of_find? hnames hfind hq hown] at htakes
      exact hkind (htakes value rfl)
    · intro q hq hown
      rw [eq_of_find? hnames hfind hq hown]
      exact ⟨value, rfl, hkind, rfl⟩
  · -- The value is written, and to the field of the parameter only.
    obtain ⟨hp, hname⟩ := mem_of_find? hfind
    have hcall : call = _ := hset
    rw [hcall]
    have hget := get_put hfields hfind run.1 value?
    refine ⟨iff_of_true rfl ⟨p, hp, hname, hkind⟩, fun _ ↦ ⟨?_, ?_, ?_, ?_⟩, fun h ↦ absurd rfl h⟩
    · exact (hget name).trans (if_pos rfl)
    · exact fun other hother ↦ (hget other).trans (if_neg hother)
    · intro field hfield hnone
      refine Record.put_of_ne fun heq ↦ ?_
      exact Structure.not_mem_fields_of_derive hderive hdistinct hfield hnone (heq ▸ List.mem_map_of_mem hp)
    · intro q hq hown
      rw [eq_of_find? hnames hfind hq hown]
      rw [matched_put]
      refine ⟨fun happart ↦ if_neg happart, fun hmatched hstring ↦ (if_pos hmatched).trans ?_⟩
      exact text?_of_string fun value hvalue ↦ (hkind value hvalue).trans hstring

/-- Tickets by number, with the name of whoever holds them. -/
def ticket : Structure where
  name := "Ticket"
  items := [.value "pattern" (.string ":number/:name")]
  fields := [{ name := "number", type := "Option<i32>", parameter? := some [] },
    { name := "holder", type := "Option<String>", parameter? := some [.value "name" (.string "name")] },
    { name := "pattern", type := "Option<String>", matched := true }, { name := "notes", type := "Vec<String>" }]

/-- The number is the last that has been given, and the holder changes alone. -/
theorem accessor_laws_ticket : ∃ derived, ticket.derive = .ok derived ∧
    let start : Record String := ⟨fun field ↦ if field = "notes" then .other "urgent" else .slot none⟩
    let run := derived.setEach Kind.ofTypeName start
      [("number", some (.integer 4)), ("name", some (.boolean true)), ("number", some (.integer 7)), ("seat", none)]
    derived.get run.1 "number" = some (.integer 7) ∧
    let call := derived.set Kind.ofTypeName run.1 "name" (some (.string "Ada"))
    call.2 = .ok () ∧ derived.get call.1 "name" = some (.string "Ada") ∧
      derived.get call.1 "number" = some (.integer 7) ∧ call.1.content "notes" = run.1.content "notes" ∧
      derived.matched call.1 = derived.matched run.1 := by
  let derived : Derived :=
    { cratePath := defaultCrate, target := "Ticket", generics := "", conditions? := none, owner := "Ticket"
      parameters := [⟨"number", "i32", none, false, "number"⟩, ⟨"name", "String", none, false, "holder"⟩]
      patterns := [⟨":number/:name", []⟩], noMatch := none, matched? := some "pattern" }
  have hderive : ticket.derive = .ok derived := by decide +kernel
  refine ⟨derived, hderive, ?_⟩
  intro start run
  obtain ⟨hcalls, hlast⟩ := accessor_laws hderive (by decide) (by decide) Kind.ofTypeName start
    [("number", some (.integer 4)), ("name", some (.boolean true)), ("number", some (.integer 7)), ("seat", none)]
  have hnumber : derived.get run.1 "number" = some (.integer 7) := (hlast "number").trans (by decide +kernel)
  have hname : derived.Takes Kind.ofTypeName "name" (some (.string "Ada")) :=
    ⟨⟨"name", "String", none, false, "holder"⟩, by decide, rfl, by rintro _ ⟨⟩; rfl⟩
  obtain ⟨hok, hchanges, -⟩ := hcalls "name" (some (.string "Ada"))
  obtain ⟨hget, hothers, hnotes, hmatched⟩ := hchanges (hok.mpr hname)
  refine ⟨hnumber, hok.mpr hname, hget, (hothers "number" (by decide)).trans hnumber, ?_, ?_⟩
  · exact hnotes { name := "notes", type := "Vec<String>" } (by simp [ticket]) rfl
  · exact (hmatched ⟨"name", "String", none, false, "holder"⟩ (by decide) rfl).1 (by decide)

/-- Pages by title. The field of the title is kept for the matched pattern as well. -/
def page : Structure where
  name := "Page"
  items := [.value "pattern" (.string ":title")]
  fields := [{ name := "title", type := "Option<String>", parameter? := some [], matched := true }]

/-- The binding of pages. -/
def pages : Derived :=
  { cratePath := defaultCrate, target := "Page", generics := "", conditions? := none, owner := "Page"
    parameters := [⟨"title", "String", none, false, "title"⟩]
    patterns := [⟨":title", []⟩], noMatch := none, matched? := some "title" }

/-- A title that is given to a page takes the place of the matched pattern. -/
theorem page_forgets_matched : ∃ derived, page.derive = .ok derived ∧ (derived.parameters.map (·.name)).Nodup ∧
    let start : Record Unit := ⟨fun _ ↦ .slot none⟩
    let before := derived.setMatched start (some ":title")
    let call := derived.set Kind.ofTypeName before "title" (some (.string "Preface"))
    call.2 = .ok () ∧ derived.matched before = some ":title" ∧ derived.matched call.1 = some "Preface" := by
  refine ⟨pages, ?_, ?_, ?_⟩
  · decide +kernel
  · decide
  · decide +kernel

end Derived

end PathBinding.Derivation
