import PathBinding.Proofs.Annotations
import PathBinding.Proofs.DerivedViews
import PathBinding.Proofs.Findings

/-!
Which structures have a derived binding, what is reported of the others, and what a derived binding declares. Fields are
gone through once, and each adds its own complaints (`Findings.complaints_addField`). Only the complaint about a second
field for the matched pattern depends on the fields before it, so complaints are counted field by field
(`Findings.count_foldl`, `Findings.count_matchedTwice_foldl`). There are none exactly if the structure is as it has to be
(`Structure.derives_as_annotated`).
-/

set_option autoImplicit false
set_option relaxedAutoImplicit false

namespace PathBinding.Derivation

/-! ### Optional types -/

namespace TypeText

variable {type argument : TypeText}

/-- A type is optional, by the last part of its path, and another type is in it. -/
def Wraps (type argument : TypeText) : Prop :=
  ∃ tokens comma rest, type.last? = some ⟨"Option", some (⟨.type, tokens, comma⟩ :: rest)⟩ ∧
    ofTokens? tokens = some argument

theorem optionArgument?_eq_some_iff : type.optionArgument? = some argument ↔ type.Wraps argument := by
  constructor
  · intro h
    simp only [optionArgument?, Option.bind_eq_bind, Option.bind_eq_some_iff] at h
    obtain ⟨⟨name, arguments?⟩, hlast, arguments, harguments, ⟨sort, tokens, comma⟩, hhead, h⟩ := h
    split_ifs at h with hoption
    obtain ⟨rfl, rfl⟩ := hoption
    obtain ⟨rest, rfl⟩ := List.head?_eq_some_iff.mp hhead
    cases harguments
    exact ⟨tokens, comma, rest, hlast, h⟩
  · rintro ⟨tokens, comma, rest, hlast, htokens⟩
    simp [optionArgument?, hlast, htokens]

/-- A type is optional, and the last part of the type in it is `String`. -/
def WrapsString (type : TypeText) : Prop :=
  ∃ argument part, type.Wraps argument ∧ argument.last? = some part ∧ part.name = "String"

theorem isOptionOf_eq_true_iff : type.isOptionOf "String" = true ↔ type.WrapsString := by
  simp only [isOptionOf, Option.any_eq_true, Option.bind_eq_some_iff, optionArgument?_eq_some_iff, beq_iff_eq]
  constructor
  · rintro ⟨part, ⟨argument, hwraps, hlast⟩, hname⟩
    exact ⟨argument, part, hwraps, hlast, hname⟩
  · rintro ⟨argument, part, hwraps, hlast, hname⟩
    exact ⟨part, ⟨argument, hwraps, hlast⟩, hname⟩

end TypeText

namespace Field

variable {field : Field} {items : List Item}

def IsOptional (field : Field) : Prop :=
  ∃ argument, field.typeText.Wraps argument

instance (field : Field) : Decidable field.IsOptional :=
  decidable_of_iff (field.typeText.optionArgument?.isSome = true) (by
    simp only [Option.isSome_iff_exists, TypeText.optionArgument?_eq_some_iff, IsOptional])

def IsOptionalString (field : Field) : Prop :=
  field.typeText.WrapsString

instance (field : Field) : Decidable field.IsOptionalString :=
  decidable_of_iff _ TypeText.isOptionOf_eq_true_iff

/-- The annotation of a field is without faults. -/
def IsReadable (field : Field) : Prop :=
  ∀ items, field.parameter? = some items → (ParameterOptions.read items).2 = 0

/-- What is wrong with the mark of a field, where the flag tells whether a field before it is for the matched pattern. -/
def markComplaints (field : Field) (taken : Bool) : List Complaint :=
  if ¬ field.matched then [] else if ¬ field.IsOptionalString then [.matchedType]
  else if taken then [.matchedTwice] else []

/-- What is wrong with a field. -/
def complaints (field : Field) (taken : Bool) : List Complaint :=
  (if field.parameter?.isSome ∧ ¬ field.IsOptional then [.parameterType] else []) ++ field.markComplaints taken

/-- A field is for the matched pattern and can hold it. -/
def Records (field : Field) : Prop :=
  field.matched ∧ field.IsOptionalString

instance (field : Field) : Decidable field.Records :=
  inferInstanceAs (Decidable (_ ∧ _))

theorem count_markComplaints (complaint : Complaint) (h : complaint ≠ .parameterType) (field : Field) (taken : Bool) :
    (field.complaints taken).count complaint = (field.markComplaints taken).count complaint := by
  rw [complaints, List.count_append]
  split_ifs <;> simp [h.symm]

theorem count_parameterType (field : Field) (taken : Bool) : (field.complaints taken).count .parameterType =
    if field.parameter?.isSome ∧ ¬ field.IsOptional then 1 else 0 := by
  unfold complaints markComplaints
  split_ifs <;> rfl

theorem count_matchedType (field : Field) (taken : Bool) : (field.complaints taken).count .matchedType =
    if field.matched ∧ ¬ field.IsOptionalString then 1 else 0 := by
  rw [count_markComplaints .matchedType nofun, markComplaints]
  by_cases hmatched : field.matched <;> by_cases hstring : field.IsOptionalString <;> cases taken <;>
    simp [hmatched, hstring]

theorem count_matchedTwice (field : Field) (taken : Bool) : (field.complaints taken).count .matchedTwice =
    if field.Records ∧ taken then 1 else 0 := by
  rw [count_markComplaints .matchedTwice nofun, markComplaints]
  by_cases hmatched : field.matched <;> by_cases hstring : field.IsOptionalString <;> cases taken <;>
    simp [Records, hmatched, hstring]

/-- Nothing else is wrong with a field. -/
theorem mem_complaints {taken : Bool} {complaint : Complaint} (h : complaint ∈ field.complaints taken) :
    complaint = .parameterType ∨ complaint = .matchedType ∨ complaint = .matchedTwice := by
  rw [complaints, markComplaints, List.mem_append] at h
  rcases h with h | h <;> split_ifs at h <;> grind

/-- Assumes: an annotation without faults. What is kept of a parameter is what the annotation says. -/
theorem parameter_cases (field : Field) (hread : (ParameterOptions.read items).2 = 0) :
    (¬ field.IsOptional ∧ field.parameter items = .error [.parameterType]) ∨
    ∃ argument, field.typeText.Wraps argument ∧ field.parameter items =
      .ok ⟨(ParameterOptions.read items).1.name?.getD field.name, argument.spell,
        (ParameterOptions.read items).1.regex?, (ParameterOptions.read items).1.dynamic, field.name⟩ := by
  unfold parameter
  dsimp only
  rw [if_pos hread]
  cases htype : field.typeText.optionArgument? with
  | none =>
    refine .inl ⟨?_, rfl⟩
    rintro ⟨argument, hwraps⟩
    rw [TypeText.optionArgument?_eq_some_iff.mpr hwraps] at htype
    cases htype
  | some argument => exact .inr ⟨argument, TypeText.optionArgument?_eq_some_iff.mp htype, rfl⟩

end Field

/-! ### Complaints field by field -/

namespace Findings

variable {found : Findings} {field : Field} {fields : List Field}

/-- What a field does that may be for the matched pattern. -/
theorem addMatched_cases (found : Findings) (field : Field) :
    (field.matched = false ∧ found.addMatched field = found) ∨
    (field.matched = true ∧ ¬ field.IsOptionalString ∧ found.addMatched field = found.complain .matchedType) ∨
    (field.Records ∧ found.matched?.isSome ∧ found.addMatched field = found.complain .matchedTwice) ∨
    (field.Records ∧ found.matched? = none ∧ found.addMatched field = { found with matched? := some field.name }) := by
  unfold addMatched
  cases hmatched : field.matched with
  | false => exact .inl ⟨rfl, rfl⟩
  | true =>
    by_cases hstring : field.IsOptionalString
    · have hrecords : field.Records := ⟨hmatched, hstring⟩
      rw [TypeText.isOptionOf_eq_true_iff.mpr hstring]
      cases hfound : found.matched? with
      | none => exact .inr (.inr (.inr ⟨hrecords, rfl, rfl⟩))
      | some name => exact .inr (.inr (.inl ⟨hrecords, rfl, rfl⟩))
    · rw [Bool.eq_false_iff.mpr (mt TypeText.isOptionOf_eq_true_iff.mp hstring)]
      exact .inr (.inl ⟨rfl, hstring, rfl⟩)

theorem matched?_addParameter (found : Findings) (field : Field) :
    (found.addParameter field).matched? = found.matched? := by
  unfold addParameter
  split <;> rfl

/-- Assumes: an annotation without faults. The only complaint about a parameter is that about its type. -/
theorem complaints_addParameter (hread : field.IsReadable) : (found.addParameter field).complaints =
    found.complaints ++ if field.parameter?.isSome ∧ ¬ field.IsOptional then [.parameterType] else [] := by
  unfold addParameter
  cases hitems : field.parameter? with
  | none => simp
  | some items =>
    rcases Field.parameter_cases field (hread items hitems) with ⟨hnot, herror⟩ | ⟨argument, hwraps, hok⟩
    · simp [herror, hnot]
    · have hoptional : field.IsOptional := ⟨argument, hwraps⟩
      simp [hok, hoptional]

/-- Assumes: an annotation without faults. A field adds what is wrong with it. -/
theorem complaints_addField (hread : field.IsReadable) :
    (found.addField field).complaints = found.complaints ++ field.complaints found.matched?.isSome := by
  rw [addField, Field.complaints, Field.markComplaints, ← List.append_assoc, ← complaints_addParameter hread]
  rcases addMatched_cases (found.addParameter field) field with ⟨hmatched, hadd⟩ | ⟨hmatched, hstring, hadd⟩ |
    ⟨⟨hmatched, hstring⟩, htaken, hadd⟩ | ⟨⟨hmatched, hstring⟩, hfree, hadd⟩
  · simp [hadd, hmatched]
  · simp [hadd, hmatched, hstring, complain]
  · rw [matched?_addParameter] at htaken
    simp [hadd, hmatched, hstring, htaken, complain]
  · rw [matched?_addParameter] at hfree
    simp [hadd, hmatched, hstring, hfree]

theorem matched?_addField (found : Findings) (field : Field) :
    (found.addField field).matched? = found.matched?.or (if field.Records then some field.name else none) := by
  rw [addField, ← matched?_addParameter found field]
  rcases addMatched_cases (found.addParameter field) field with ⟨hmatched, hadd⟩ | ⟨-, hstring, hadd⟩ |
    ⟨-, htaken, hadd⟩ | ⟨hrecords, hfree, hadd⟩
  · simp [hadd, Field.Records, hmatched]
  · simp [hadd, Field.Records, hstring, complain]
  · rw [hadd, Option.or_of_isSome htaken]
    rfl
  · simp [hadd, hrecords, hfree]

/-- The first field that can hold the matched pattern does. -/
theorem matched?_foldl : (fields.foldl addField found).matched? =
    found.matched?.or ((fields.find? fun field ↦ field.Records).map (·.name)) := by
  induction fields generalizing found with
  | nil => simp
  | cons field rest ih =>
    rw [List.foldl_cons, ih, matched?_addField, Option.or_assoc, List.find?_cons]
    by_cases hrecords : field.Records <;> simp [hrecords]

/-- Assumes: annotations without faults, and a complaint that a field gets or not whatever is before it. It is counted
once for each field that gets it. -/
theorem count_foldl {complaint : Complaint} {p : Field → Prop} [DecidablePred p]
    (hone : ∀ field taken, (field.complaints taken).count complaint = if p field then 1 else 0)
    (hread : ∀ field ∈ fields, field.IsReadable) :
    (fields.foldl addField found).complaints.count complaint =
      found.complaints.count complaint + fields.countP fun field ↦ p field := by
  induction fields generalizing found with
  | nil => rfl
  | cons field rest ih =>
    obtain ⟨hhead, htail⟩ := List.forall_mem_cons.mp hread
    rw [List.foldl_cons, ih htail, complaints_addField hhead, List.count_append, hone, List.countP_cons]
    simp only [decide_eq_true_iff]
    omega

/-- Assumes: annotations without faults. The first field that can hold the matched pattern does, and each further one
gets a complaint. -/
theorem count_matchedTwice_foldl (hread : ∀ field ∈ fields, field.IsReadable) :
    (fields.foldl addField found).complaints.count .matchedTwice + (fields.foldl addField found).matched?.isSome.toNat =
      found.complaints.count .matchedTwice + found.matched?.isSome.toNat + fields.countP fun field ↦ field.Records := by
  induction fields generalizing found with
  | nil => rfl
  | cons field rest ih =>
    obtain ⟨hhead, htail⟩ := List.forall_mem_cons.mp hread
    have hstep : (found.addField field).complaints.count .matchedTwice + (found.addField field).matched?.isSome.toNat =
        found.complaints.count .matchedTwice + found.matched?.isSome.toNat + if field.Records then 1 else 0 := by
      rw [complaints_addField hhead, matched?_addField, List.count_append, Field.count_matchedTwice]
      cases found.matched? <;> by_cases hrecords : field.Records <;> simp [hrecords]
    rw [List.foldl_cons, ih htail, hstep, List.countP_cons]
    simp only [decide_eq_true_iff]
    omega

/-- Assumes: annotations without faults. No field gets any other complaint. -/
theorem mem_foldl {complaint : Complaint} (hread : ∀ field ∈ fields, field.IsReadable)
    (h : complaint ∈ (fields.foldl addField found).complaints) : complaint ∈ found.complaints ∨
      complaint = .parameterType ∨ complaint = .matchedType ∨ complaint = .matchedTwice := by
  induction fields generalizing found with
  | nil => exact .inl h
  | cons field rest ih =>
    obtain ⟨hhead, htail⟩ := List.forall_mem_cons.mp hread
    rcases ih htail h with h | h
    · rw [complaints_addField hhead, List.mem_append] at h
      exact h.imp_right Field.mem_complaints
    · exact .inr h

end Findings

/-! ### Policies -/

/-- Options ask for a policy. -/
def MappingOptions.Asks (options : MappingOptions) : NoMatchPolicy → Prop
  | .rerouteToError kind => options.rerouteError? = some kind
  | .rerouteToView kind => options.rerouteView? = some kind
  | .ignore => options.ignores = true

/-- Options have the policy that they ask for, if there is one, and two are in conflict. -/
theorem MappingOptions.policy_cases (options : MappingOptions) :
    (∃ policy?, options.policy = .ok policy? ∧ ∀ p, policy? = some p ↔ options.Asks p) ∨
    (options.policy = .error .policyConflict ∧ ∃ p q, options.Asks p ∧ options.Asks q ∧ p ≠ q) := by
  obtain ⟨owner?, patterns, error?, view?, ignores, cratePath?⟩ := options
  match error?, view?, ignores with
  | none, none, false =>
    refine .inl ⟨none, rfl, fun p ↦ ?_⟩
    cases p <;> simp [Asks]
  | some kind, none, false =>
    refine .inl ⟨some (.rerouteToError kind), rfl, fun p ↦ ?_⟩
    cases p <;> simp [Asks]
  | none, some kind, false =>
    refine .inl ⟨some (.rerouteToView kind), rfl, fun p ↦ ?_⟩
    cases p <;> simp [Asks]
  | none, none, true =>
    refine .inl ⟨some .ignore, rfl, fun p ↦ ?_⟩
    cases p <;> simp [Asks]
  | some kind, some other, _ => exact .inr ⟨rfl, .rerouteToError kind, .rerouteToView other, rfl, rfl, nofun⟩
  | some kind, none, true => exact .inr ⟨rfl, .rerouteToError kind, .ignore, rfl, rfl, nofun⟩
  | none, some kind, true => exact .inr ⟨rfl, .rerouteToView kind, .ignore, rfl, rfl, nofun⟩

namespace Structure

variable {source : Structure} {options : MappingOptions}

/-- The items of a structure give a policy. -/
def Gives (source : Structure) : NoMatchPolicy → Prop
  | .rerouteToError kind => .value "reroute_error" (.string kind) ∈ source.items
  | .rerouteToView kind => .value "reroute_view" (.string kind) ∈ source.items
  | .ignore => Affirms source.items "ignore_if_not_matched"

/-- The items of a structure give no two policies. -/
def HasOnePolicy (source : Structure) : Prop :=
  ∀ p q, source.Gives p → source.Gives q → p = q

theorem asks_iff (h : options.Says source.items) (p : NoMatchPolicy) : options.Asks p ↔ source.Gives p := by
  cases p with
  | rerouteToError kind => exact h.rerouteError kind
  | rerouteToView kind => exact h.rerouteView kind
  | ignore => exact h.ignores

/-- Assumes: options that are what the items say. They are in conflict if the items give two policies, and otherwise the
policy is the one that is given, if there is one. -/
theorem policy_cases (h : options.Says source.items) :
    (source.HasOnePolicy ∧ options.conflicts = [] ∧ ∀ p, options.policy.toOption.join = some p ↔ source.Gives p) ∨
    (¬ source.HasOnePolicy ∧ options.conflicts = [.policyConflict]) := by
  simp only [MappingOptions.conflicts, HasOnePolicy, ← asks_iff h]
  rcases options.policy_cases with ⟨policy?, hpolicy, hasks⟩ | ⟨hpolicy, p, q, hp, hq, hne⟩
  · rw [hpolicy]
    refine .inl ⟨fun p q hp hq ↦ ?_, rfl, hasks⟩
    exact Option.some.inj (((hasks p).mpr hp).symm.trans ((hasks q).mpr hq))
  · rw [hpolicy]
    exact .inr ⟨fun hone ↦ hne (hone p q hp hq), rfl⟩

/-! ### Structures as a whole -/

/-- The annotations of a structure and of its fields are without faults. -/
structure IsReadable (source : Structure) : Prop where
  items : (MappingOptions.read source.items).2 = 0
  fields : ∀ field ∈ source.fields, field.IsReadable

/-- What a structure has to be like for a binding to be derived. -/
structure IsDerivable (source : Structure) : Prop where
  named : source.shape = .named
  parameters : ∀ field ∈ source.fields, field.parameter?.isSome → field.IsOptional
  matched : ∀ field ∈ source.fields, field.matched → field.IsOptionalString
  oneMatched : (source.fields.countP fun field ↦ field.matched) ≤ 1
  onePolicy : source.HasOnePolicy

/-- Complaints that report everything that is wrong with a structure. -/
structure Reports (source : Structure) (complaints : List Complaint) : Prop where
  parameterType : complaints.count .parameterType =
    source.fields.countP fun field ↦ field.parameter?.isSome ∧ ¬ field.IsOptional
  matchedType : complaints.count .matchedType =
    source.fields.countP fun field ↦ field.matched ∧ ¬ field.IsOptionalString
  matchedTwice : complaints.count .matchedTwice =
    (source.fields.countP fun field ↦ field.matched ∧ field.IsOptionalString) - 1
  policyConflict : complaints.count .policyConflict ≤ 1 ∧ (.policyConflict ∈ complaints ↔ ¬ source.HasOnePolicy)
  malformed : .malformed ∉ complaints

/-- The descriptor that a field with these items declares. -/
structure Describes (kindOf : String → Kind) (field : Field) (items : List Item) (descriptor : Descriptor) : Prop where
  name : IsNamed items field.name descriptor.name
  kind : ∃ argument, field.typeText.Wraps argument ∧ descriptor.kind = kindOf argument.spell
  regex : ∀ text, descriptor.regex = some text ↔ .value "regex" (.string text) ∈ items
  dynamic : descriptor.dynamic = true ↔ Affirms items "dynamic"

/-- The declaration that a structure with these annotations amounts to. -/
structure Declares (source : Structure) (kindOf : String → Kind) (annotations : List (List Item))
    (declaration : Declaration) : Prop where
  owner : IsNamed source.items source.name declaration.owner
  parameters : List.Forall₂ (fun annotated descriptor ↦ Describes kindOf annotated.1 annotated.2 descriptor)
    (source.fields.filterMap fun field ↦ field.parameter?.map (field, ·)) declaration.parameters
  patterns : List.Forall₂ Item.SpellsPattern
    (annotations.flatMap fun items ↦ items.filter (·.key? == some "pattern")) declaration.patterns
  noMatch : ∀ p, declaration.noMatch = some p ↔ source.Gives p

theorem count_matchedTwice_findings (hread : ∀ field ∈ source.fields, field.IsReadable) :
    source.findings.complaints.count .matchedTwice = (source.fields.countP fun field ↦ field.Records) - 1 := by
  have hcount : source.findings.complaints.count .matchedTwice + source.findings.matched?.isSome.toNat =
      0 + 0 + source.fields.countP fun field ↦ field.Records := Findings.count_matchedTwice_foldl hread
  have hmatched : source.findings.matched? =
      Option.or none ((source.fields.find? fun field ↦ field.Records).map (·.name)) := Findings.matched?_foldl
  rw [hmatched, Option.none_or, Option.isSome_map] at hcount
  cases hfind : source.fields.find? fun field ↦ field.Records with
  | none =>
    have hzero : (source.fields.countP fun field ↦ field.Records) = 0 :=
      List.countP_eq_zero.mpr (List.find?_eq_none.mp hfind)
    rw [hzero] at hcount ⊢
    omega
  | some field =>
    rw [hfind] at hcount
    simp only [Option.isSome_some, Bool.toNat_true] at hcount
    omega

/-- Assumes: annotations without faults. Nothing that is wrong with the structure is left out. -/
theorem reports_findings (hread : source.IsReadable) :
    source.Reports (source.findings.complaints ++ (MappingOptions.read source.items).1.conflicts) := by
  have hpolicy := policy_cases (MappingOptions.says_read hread.items)
  generalize (MappingOptions.read source.items).1 = options at hpolicy ⊢
  -- Fields are not blamed for the policy, and the policy for nothing else.
  have hconflicts (complaint : Complaint) (hne : complaint ≠ .policyConflict) :
      (source.findings.complaints ++ options.conflicts).count complaint =
        source.findings.complaints.count complaint := by
    rcases hpolicy with ⟨-, hconflicts, -⟩ | ⟨-, hconflicts⟩ <;> simp [hconflicts, hne.symm]
  have hfields {complaint : Complaint} (hmem : complaint ∈ source.findings.complaints) :
      complaint = .parameterType ∨ complaint = .matchedType ∨ complaint = .matchedTwice :=
    (Findings.mem_foldl hread.fields hmem).resolve_left (List.not_mem_nil)
  constructor
  · rw [hconflicts .parameterType nofun]
    exact (Findings.count_foldl Field.count_parameterType hread.fields).trans (Nat.zero_add _)
  · rw [hconflicts .matchedType nofun]
    exact (Findings.count_foldl Field.count_matchedType hread.fields).trans (Nat.zero_add _)
  · rw [hconflicts .matchedTwice nofun]
    exact count_matchedTwice_findings hread.fields
  · have hnot : .policyConflict ∉ source.findings.complaints := fun hmem ↦ by simpa using hfields hmem
    rw [List.count_append, List.count_eq_zero.mpr hnot, List.mem_append]
    rcases hpolicy with ⟨hone, hnone, -⟩ | ⟨htwo, hconflict⟩
    · simp [hnone, hone, hnot]
    · simp [hconflict, htwo]
  · rw [← List.count_eq_zero, hconflicts .malformed nofun, List.count_eq_zero]
    exact fun hmem ↦ by simpa using hfields hmem

/-- Complaints that report everything are none exactly if nothing is wrong. -/
theorem Reports.eq_nil_iff {complaints : List Complaint} (h : source.Reports complaints)
    (hnamed : source.shape = .named) : complaints = [] ↔ source.IsDerivable := by
  have hcount (hmatched : ∀ field ∈ source.fields, field.matched → field.IsOptionalString) :
      (source.fields.countP fun field ↦ field.matched ∧ field.IsOptionalString) =
        source.fields.countP fun field ↦ field.matched := by
    refine List.countP_congr fun field hfield ↦ ?_
    simpa using hmatched field hfield
  constructor
  · rintro rfl
    have hmatched : ∀ field ∈ source.fields, field.matched → field.IsOptionalString := by
      simpa using List.countP_eq_zero.mp h.matchedType.symm
    refine ⟨hnamed, ?_, hmatched, ?_, ?_⟩
    · simpa using List.countP_eq_zero.mp h.parameterType.symm
    · have htwice := h.matchedTwice
      rw [hcount hmatched, List.count_nil] at htwice
      omega
    · simpa using h.policyConflict.2
  · intro hderivable
    refine List.eq_nil_iff_forall_not_mem.mpr fun complaint ↦ ?_
    cases complaint with
    | malformed => exact h.malformed
    | parameterType =>
      refine List.count_eq_zero.mp (h.parameterType.trans (List.countP_eq_zero.mpr fun field hfield ↦ ?_))
      simpa using hderivable.parameters field hfield
    | matchedType =>
      refine List.count_eq_zero.mp (h.matchedType.trans (List.countP_eq_zero.mpr fun field hfield ↦ ?_))
      simpa using hderivable.matched field hfield
    | matchedTwice =>
      refine List.count_eq_zero.mp (h.matchedTwice.trans ?_)
      rw [hcount hderivable.matched]
      exact Nat.sub_eq_zero_of_le hderivable.oneMatched
    | policyConflict => exact fun hmem ↦ h.policyConflict.2.mp hmem hderivable.onePolicy

/-- Assumes: annotations without faults, and fields with names. A binding is derived if there are no complaints, and
otherwise all of them are given. -/
theorem derive_cases (hread : source.IsReadable) (hnamed : source.shape = .named) :
    let options := (MappingOptions.read source.items).1
    let complaints := source.findings.complaints ++ options.conflicts
    (complaints = [] ∧ ∃ derived, source.derive = .ok derived ∧ derived.owner = options.owner?.getD source.name ∧
      derived.patterns = options.patterns ∧ derived.noMatch = options.policy.toOption.join) ∨
    (complaints ≠ [] ∧ source.derive = .error complaints) := by
  intro options complaints
  unfold derive
  dsimp only
  rw [hread.items, if_pos hnamed, if_pos rfl]
  by_cases hnone : complaints = []
  · exact .inl ⟨hnone, _, if_pos (List.isEmpty_iff.mpr hnone), rfl, rfl, rfl⟩
  · exact .inr ⟨hnone, if_neg (mt List.isEmpty_iff.mp hnone)⟩

theorem derive_of_shape (hread : source.IsReadable) (hshape : source.shape ≠ .named) :
    source.derive = .error [.malformed] := by
  unfold derive
  dsimp only
  rw [hread.items, if_neg hshape]
  rfl

/-- Assumes: annotations without faults. A binding is derived from derivable structures only. -/
theorem isDerivable_of_derive (hread : source.IsReadable) {derived : Derived} (h : source.derive = .ok derived) :
    source.IsDerivable := by
  by_cases hnamed : source.shape = .named
  · rcases derive_cases hread hnamed with ⟨hnone, -⟩ | ⟨-, herror⟩
    · exact ((reports_findings hread).eq_nil_iff hnamed).mp hnone
    · cases h.symm.trans herror
  · cases h.symm.trans (derive_of_shape hread hnamed)

/-- Assumes: annotations without faults, and parameters of optional types. Each parameter is declared as it is
annotated. -/
theorem describes_declared {fields : List Field} (hread : ∀ field ∈ fields, field.IsReadable)
    (hoptional : ∀ field ∈ fields, field.parameter?.isSome → field.IsOptional) (kindOf : String → Kind) :
    List.Forall₂ (fun annotated descriptor ↦ Describes kindOf annotated.1 annotated.2 descriptor)
      (fields.filterMap fun field ↦ field.parameter?.map (field, ·))
      ((fields.filterMap Field.declared?).map fun p ↦ ⟨p.name, kindOf p.type, p.regex, p.dynamic⟩) := by
  induction fields with
  | nil => exact .nil
  | cons field rest ih =>
    obtain ⟨hhead, htail⟩ := List.forall_mem_cons.mp hread
    obtain ⟨hfirst, hothers⟩ := List.forall_mem_cons.mp hoptional
    have hrest := ih htail hothers
    cases hitems : field.parameter? with
    | none =>
      have hdeclared : field.declared? = none := by rw [Field.declared?, hitems, Option.bind_none]
      rw [List.filterMap_cons_none hdeclared, List.filterMap_cons_none (by rw [hitems, Option.map_none])]
      exact hrest
    | some items =>
      have hoptions := ParameterOptions.says_read (hhead items hitems)
      rcases Field.parameter_cases field (hhead items hitems) with ⟨hnot, -⟩ | ⟨argument, hwraps, hok⟩
      · exact absurd (hfirst (by rw [hitems]; rfl)) hnot
      have hdeclared := Field.declared?_eq_some_iff.mpr ⟨items, hitems, hok⟩
      rw [List.filterMap_cons_some hdeclared, List.filterMap_cons_some (by rw [hitems, Option.map_some]), List.map_cons]
      exact .cons ⟨hoptions.name field.name, ⟨argument, hwraps, rfl⟩, hoptions.regex, hoptions.dynamic⟩ hrest

/-- Assumes: annotations without faults. A derived binding declares what the structure says. -/
theorem declares_of_derive (hread : source.IsReadable) {annotations : List (List Item)}
    (hitems : source.items = annotations.flatten) (kindOf : String → Kind) {derived : Derived}
    (h : source.derive = .ok derived) : source.Declares kindOf annotations (derived.declaration kindOf) := by
  have hderivable := isDerivable_of_derive hread h
  have hoptions := MappingOptions.says_read hread.items
  rcases derive_cases hread hderivable.named with ⟨hnone, other, hother, howner, hpatterns, hpolicy⟩ | ⟨-, herror⟩
  · cases h.symm.trans hother
    constructor
    · change IsNamed source.items source.name derived.owner
      rw [howner]
      exact hoptions.owner source.name
    · change List.Forall₂ _ _ (derived.parameters.map _)
      rw [parameters_of_derive h]
      exact describes_declared hread.fields hderivable.parameters kindOf
    · change List.Forall₂ _ _ derived.patterns
      rw [hpatterns, List.flatMap_def, ← List.filter_flatten, ← hitems]
      exact hoptions.patterns
    · intro p
      change derived.noMatch = some p ↔ _
      rw [hpolicy]
      rcases policy_cases hoptions with ⟨-, -, hgives⟩ | ⟨hnot, -⟩
      · exact hgives p
      · exact absurd hderivable.onePolicy hnot
  · cases h.symm.trans herror

/-- Assumes: annotations without faults. The matched pattern is kept in the field that is for it. -/
theorem matched?_of_derive (hread : source.IsReadable) {derived : Derived} (h : source.derive = .ok derived)
    (name : String) : derived.matched? = some name ↔ ∃ field ∈ source.fields, field.matched ∧ field.name = name := by
  have hderivable := isDerivable_of_derive hread h
  have hmatched : derived.matched? = ((source.fields.filter fun field ↦ field.matched).head?).map (·.name) := by
    have hrecords : (source.fields.filter fun field ↦ field.Records) =
        source.fields.filter fun field ↦ field.matched := by
      refine List.filter_congr fun field hfield ↦ Bool.eq_iff_iff.mpr (decide_eq_true_iff.trans ?_)
      exact and_iff_left_of_imp (hderivable.matched field hfield)
    rw [(findings_of_derive h).2, findings, Findings.matched?_foldl, ← hrecords, List.head?_filter]
    exact Option.none_or
  have hmem {field : Field} :
      field ∈ source.fields ∧ field.matched ↔ field ∈ source.fields.filter fun field ↦ field.matched :=
    List.mem_filter.symm
  have hone := hderivable.oneMatched
  rw [List.countP_eq_length_filter] at hone
  simp only [← and_assoc, hmem, hmatched]
  generalize (source.fields.filter fun field ↦ field.matched) = own at hone ⊢
  rcases own with _ | ⟨first, _ | ⟨second, others⟩⟩
  · simp
  · simp
  · simp at hone

/-- Assumes: any number of annotations, all without faults. A binding is derived exactly from the derivable structures,
and everything that is wrong with another structure is reported. A derived binding declares the parameters in the order
of their fields and the patterns in the order of the annotations. -/
theorem derives_as_annotated {annotations : List (List Item)} (hitems : source.items = annotations.flatten)
    (hread : source.IsReadable) :
    ((∃ derived, source.derive = .ok derived) ↔ source.IsDerivable) ∧
    (source.shape ≠ .named → source.derive = .error [.malformed]) ∧
    (source.shape = .named → ∀ complaints, source.derive = .error complaints → source.Reports complaints) ∧
    ∀ derived, source.derive = .ok derived →
      (∀ kindOf, source.Declares kindOf annotations (derived.declaration kindOf)) ∧
      ∀ name, derived.matched? = some name ↔ ∃ field ∈ source.fields, field.matched ∧ field.name = name := by
  refine ⟨⟨fun ⟨_, h⟩ ↦ isDerivable_of_derive hread h, fun hderivable ↦ ?_⟩, derive_of_shape hread, ?_, ?_⟩
  · have hnone := ((reports_findings hread).eq_nil_iff hderivable.named).mpr hderivable
    rcases derive_cases hread hderivable.named with ⟨-, derived, hderived, -⟩ | ⟨hsome, -⟩
    · exact ⟨derived, hderived⟩
    · exact absurd hnone hsome
  · intro hnamed complaints h
    rcases derive_cases hread hnamed with ⟨-, derived, hderived, -⟩ | ⟨-, herror⟩
    · cases h.symm.trans hderived
    · cases h.symm.trans herror
      exact reports_findings hread
  · exact fun derived h ↦ ⟨fun kindOf ↦ declares_of_derive hread hitems kindOf h, matched?_of_derive hread h⟩

/-- The annotations of bookings, with a query of two parts. -/
def bookingAnnotations : List (List Item) :=
  [[.value "pattern" (.string "bookings/:id"), .value "reroute_view" (.string "Bookings")],
    [.list "pattern" [.value "path" (.string "rooms/:room"),
      .list "query" [.bare (.string "guest=:guest"), .bare (.string "id=:id")]]]]

/-- Bookings of rooms, by number or by guest. -/
def booking : Structure where
  name := "Booking"
  items := bookingAnnotations.flatten
  fields := [{ name := "id", type := "Option<i64>", parameter? := some [] },
    { name := "chamber", type := "Option<i32>", parameter? := some [.value "name" (.string "room")] },
    { name := "guest", type := "std::option::Option<String>", parameter? := some [.word "dynamic"] },
    { name := "pattern", type := "Option<String>", matched := true }, { name := "notes", type := "Vec<String>" }]

/-- Bookings have a binding with both patterns, the second with its query parts, and reroute to the view of bookings. -/
theorem derives_as_annotated_booking : ∃ derived, booking.derive = .ok derived ∧ booking.IsDerivable ∧
    List.Forall₂ Item.SpellsPattern (bookingAnnotations.flatMap fun items ↦ items.filter (·.key? == some "pattern"))
      [⟨"bookings/:id", []⟩, ⟨"rooms/:room", ["guest=:guest", "id=:id"]⟩] ∧
    booking.Gives (.rerouteToView "Bookings") ∧ derived.matched? = some "pattern" := by
  have hread : booking.IsReadable := by
    refine ⟨by decide, ?_⟩
    simp only [booking, List.forall_mem_cons, Field.IsReadable]
    refine ⟨?_, ?_, ?_, ?_, ?_, nofun⟩ <;> rintro items ⟨⟩ <;> decide
  obtain ⟨hiff, -, -, hok⟩ := derives_as_annotated (rfl : booking.items = bookingAnnotations.flatten) hread
  let derived : Derived :=
    { cratePath := defaultCrate, target := "Booking", generics := "", conditions? := none, owner := "Booking"
      parameters := [⟨"id", "i64", none, false, "id"⟩, ⟨"room", "i32", none, false, "chamber"⟩,
        ⟨"guest", "String", none, true, "guest"⟩]
      patterns := [⟨"bookings/:id", []⟩, ⟨"rooms/:room", ["guest=:guest", "id=:id"]⟩]
      noMatch := some (.rerouteToView "Bookings"), matched? := some "pattern" }
  have hderive : booking.derive = .ok derived := by decide +kernel
  have hdeclares := (hok derived hderive).1 Kind.ofTypeName
  exact ⟨derived, hderive, hiff.mp ⟨derived, hderive⟩, hdeclares.patterns, (hdeclares.noMatch _).mp rfl, rfl⟩

/-- Shelves with an item that denies what it could ask for. -/
def shelf : Structure where
  name := "Shelf"
  items := [.value "pattern" (.string "shelves/:id"), .value "reroute_error" (.string "NotFound"),
    .value "ignore_if_not_matched" (.boolean false)]
  fields := [{ name := "id", type := "Option<i32>", parameter? := some [] }]

/-- Drawers with two fields for the matched pattern, of which the first cannot hold it. -/
def drawer : Structure where
  name := "Drawer"
  items := [.value "pattern" (.string "drawers")]
  fields := [{ name := "code", type := "i32", matched := true },
    { name := "pattern", type := "Option<String>", matched := true }]

/-- An item that denies a policy does not stand against one that gives another, and a field that cannot hold the matched
pattern does not make the next one a second. -/
theorem derives_leniently :
    (shelf.IsReadable ∧ .value "reroute_error" (.string "NotFound") ∈ shelf.items ∧
      .value "ignore_if_not_matched" (.boolean false) ∈ shelf.items ∧ ∃ derived, shelf.derive = .ok derived) ∧
    drawer.IsReadable ∧ drawer.shape = .named ∧ (drawer.fields.countP fun field ↦ field.matched) = 2 ∧
      ∃ complaints, drawer.derive = .error complaints ∧ .matchedTwice ∉ complaints := by
  refine ⟨⟨⟨by decide, ?_⟩, by simp [shelf], by simp [shelf], ?_⟩, ⟨by decide, ?_⟩, rfl, rfl, [.matchedType], ?_, ?_⟩
  · simp only [shelf, List.forall_mem_singleton, Field.IsReadable]
    rintro items ⟨⟩
    decide
  · refine ⟨{ cratePath := defaultCrate, target := "Shelf", generics := "", conditions? := none, owner := "Shelf"
              parameters := [⟨"id", "i32", none, false, "id"⟩], patterns := [⟨"shelves/:id", []⟩]
              noMatch := some (.rerouteToError "NotFound"), matched? := none }, ?_⟩
    decide +kernel
  · simp only [drawer, List.forall_mem_cons, Field.IsReadable]
    exact ⟨nofun, nofun, nofun⟩
  · decide +kernel
  · decide

end Structure

end PathBinding.Derivation
