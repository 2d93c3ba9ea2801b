import Mathlib.Data.List.Forall2
import PathBinding.Derivation.Options

/-!
Annotations without faults. A key that may stand once is not there, or one item has it and its value is of the right
form (`readOnce_cases`), so an option is what the item of its key says. A pattern stands alone or as its path with query
parts, which are one text, an array of texts or a list of them (`Item.SpellsPattern`). Options as a whole are what the
items say, with the patterns in the order of their items (`MappingOptions.says_read`, `ParameterOptions.says_read`).
-/

set_option autoImplicit false
set_option relaxedAutoImplicit false

namespace PathBinding.Derivation

variable {items : List Item} {key text : String}

namespace Item

theorem text?_eq_some_iff {item : Item} :
    item.key? = some key ∧ item.text? = some text ↔ item = .value key (.string text) := by
  constructor
  · rintro ⟨hkey, htext⟩
    unfold text? at htext
    split at htext
    · cases hkey
      cases htext
      rfl
    · cases htext
  · rintro rfl
    exact ⟨rfl, rfl⟩

/-- Query parts: none, one text, an array of texts, or a list of them. -/
inductive SpellsQuery (items : List Item) : List String → Prop
  | absent (h : items.filter (·.key? == some "query") = []) : SpellsQuery items []
  | text {part : String} (h : items.filter (·.key? == some "query") = [.value "query" (.string part)]) :
    SpellsQuery items [part]
  | array {parts : List String}
    (h : items.filter (·.key? == some "query") = [.value "query" (.array (parts.map .string))]) :
    SpellsQuery items parts
  | list {parts : List String}
    (h : items.filter (·.key? == some "query") = [.list "query" (parts.map fun part ↦ .bare (.string part))]) :
    SpellsQuery items parts

/-- A pattern alone, or its path with query parts. -/
inductive SpellsPattern : Item → PatternDeclaration → Prop
  | alone (pattern : String) : SpellsPattern (.value "pattern" (.string pattern)) ⟨pattern, []⟩
  | parts {items : List Item} {path : String} {query : List String}
    (hpath : items.filter (·.key? == some "path") = [.value "path" (.string path)]) (hquery : SpellsQuery items query) :
    SpellsPattern (.list "pattern" items) ⟨path, query⟩

end Item

/-- A name is given by an item, or else it is that of what the items are for. -/
def IsNamed (items : List Item) (default name : String) : Prop :=
  (∀ text, .value "name" (.string text) ∈ items → name = text) ∧
    ((∀ item ∈ items, item.key? ≠ some "name") → name = default)

/-- An item affirms a key. -/
def Affirms (items : List Item) (key : String) : Prop :=
  ∃ item ∈ items, item.key? = some key ∧ item.truth? = some true

/-! ### Keys that stand once -/

section Once

variable {α : Type} {read? : Item → Option α}

/-- Assumes: no faults. The key is not there, or one item has it, and that item can be read. -/
theorem readOnce_cases (h : (readOnce read? key items).faults = 0) :
    (items.filter (·.key? == some key) = [] ∧ (readOnce read? key items).value? = none) ∨
    ∃ item a, items.filter (·.key? == some key) = [item] ∧ item.key? = some key ∧ read? item = some a ∧
      (readOnce read? key items).value? = some a := by
  unfold readOnce at h ⊢
  cases hitems : items.filter (·.key? == some key) with
  | nil => exact .inl ⟨rfl, rfl⟩
  | cons first repeats =>
    rw [hitems] at h
    obtain ⟨hfirst, hrepeats⟩ := Nat.add_eq_zero_iff.mp h
    obtain rfl := List.length_eq_zero_iff.mp hrepeats
    have hmem : first ∈ items.filter (·.key? == some key) := hitems ▸ List.mem_singleton_self first
    cases hread : read? first with
    | none => simp [hread] at hfirst
    | some a => exact .inr ⟨first, a, rfl, eq_of_beq (List.mem_filter.mp hmem).2, hread, hread⟩

/-- Assumes: no faults. The option is what an item of its key says. -/
theorem readOnce_eq_some_iff (h : (readOnce read? key items).faults = 0) {a : α} :
    (readOnce read? key items).value? = some a ↔ ∃ item ∈ items, item.key? = some key ∧ read? item = some a := by
  have hmem {item : Item} : item ∈ items ∧ item.key? = some key ↔ item ∈ items.filter (·.key? == some key) := by
    rw [List.mem_filter, beq_iff_eq]
  simp only [← and_assoc, hmem]
  rcases readOnce_cases h with ⟨hnone, hvalue⟩ | ⟨item, b, hone, -, hread, hvalue⟩
  · simp [hnone, hvalue]
  · simp [hone, hvalue, hread]

theorem readText_eq_some_iff (h : (readOnce Item.text? key items).faults = 0) :
    (readOnce Item.text? key items).value? = some text ↔ .value key (.string text) ∈ items := by
  simp only [readOnce_eq_some_iff h, Item.text?_eq_some_iff, exists_eq_right]

theorem readTruth_eq_true_iff (h : (readOnce Item.truth? key items).faults = 0) :
    (readOnce Item.truth? key items).value?.getD false = true ↔ Affirms items key := by
  rw [Affirms, ← readOnce_eq_some_iff h]
  cases (readOnce Item.truth? key items).value? <;> simp

theorem isNamed_readText (h : (readOnce Item.text? "name" items).faults = 0) (default : String) :
    IsNamed items default ((readOnce Item.text? "name" items).value?.getD default) := by
  constructor
  · intro text hmem
    rw [(readText_eq_some_iff h).mpr hmem, Option.getD_some]
  · intro hnone
    cases hvalue : (readOnce Item.text? "name" items).value? with
    | none => rfl
    | some text => exact absurd rfl (hnone _ ((readText_eq_some_iff h).mp hvalue))

end Once

/-! ### Patterns -/

theorem eq_map_of_mapM {α β : Type} {f : α → Option β} {g : β → α} (hf : ∀ a b, f a = some b → a = g b) {as : List α}
    {bs : List β} (h : as.mapM f = some bs) : as = bs.map g := by
  induction as generalizing bs with
  | nil =>
    cases h
    rfl
  | cons a as ih =>
    rw [List.mapM_cons] at h
    simp only [Option.bind_eq_bind, Option.bind_eq_some_iff, Option.pure_def, Option.some.injEq] at h
    obtain ⟨b, hb, rest, hrest, rfl⟩ := h
    rw [List.map_cons, ← hf a b hb, ← ih hrest]

/-- Texts that can be read are spelled in one of three ways. -/
theorem Item.texts?_cases {item : Item} {texts : List String} (hkey : item.key? = some key)
    (h : item.texts? = some texts) :
    (∃ text, texts = [text] ∧ item = .value key (.string text)) ∨ item = .value key (.array (texts.map .string)) ∨
      item = .list key (texts.map fun text ↦ .bare (.string text)) := by
  unfold texts? at h
  split at h
  · cases hkey
    cases h
    exact .inl ⟨_, rfl, rfl⟩
  · cases hkey
    refine .inr (.inl (congrArg _ (congrArg _ (eq_map_of_mapM ?_ h))))
    intro literal text hliteral
    cases literal <;> cases hliteral
    rfl
  · cases hkey
    refine .inr (.inr (congrArg _ (eq_map_of_mapM ?_ h)))
    rintro (literal | _ | _ | _) text hitem
    · cases literal <;> cases hitem
      rfl
    all_goals cases hitem
  · cases h

theorem spellsQuery_readOnce (h : (readOnce Item.texts? "query" items).faults = 0) :
    Item.SpellsQuery items ((readOnce Item.texts? "query" items).value?.getD []) := by
  rcases readOnce_cases h with ⟨hnone, hvalue⟩ | ⟨item, texts, hone, hkey, hread, hvalue⟩
  · rw [hvalue]
    exact .absent hnone
  · rw [hvalue, Option.getD_some]
    rcases Item.texts?_cases hkey hread with ⟨text, rfl, rfl⟩ | rfl | rfl
    · exact .text hone
    · exact .array hone
    · exact .list hone

/-- Assumes: no faults. The parts of a pattern have none either, and the path is one of them. -/
theorem readPattern_list (h : (readPattern (.list key items)).faults = 0) :
    let path := readOnce Item.text? "path" items
    let query := readOnce Item.texts? "query" items
    path.faults = 0 ∧ query.faults = 0 ∧ (∃ item ∈ items, item.key? = some "path") ∧
      (readPattern (.list key items)).value? = path.value?.map fun path ↦ ⟨path, query.value?.getD []⟩ := by
  intro path query
  let missing := if items.any (·.key? == some "path") then 0 else 1
  have hread : readPattern (.list key items) =
      if path.faults + query.faults + strangers ["path", "query"] items + missing = 0 then
        ⟨path.value?.map fun path ↦ ⟨path, query.value?.getD []⟩, 0⟩
      else ⟨none, path.faults + query.faults + strangers ["path", "query"] items + missing⟩ := rfl
  rw [hread] at h ⊢
  split_ifs at h ⊢ with hfaults
  · obtain ⟨⟨⟨hpath, hquery⟩, -⟩, hthere⟩ := by simpa only [Nat.add_eq_zero_iff] using hfaults
    have hany : items.any (·.key? == some "path") = true := by
      by_contra hnot
      exact absurd hthere (by simp [missing, hnot])
    obtain ⟨item, hmem, hkey⟩ := List.any_eq_true.mp hany
    exact ⟨hpath, hquery, ⟨item, hmem, eq_of_beq hkey⟩, rfl⟩
  · exact absurd h hfaults

/-- Assumes: no faults. A pattern is read as it is spelled. -/
theorem spellsPattern_readPattern {item : Item} (hkey : item.key? = some "pattern")
    (h : (readPattern item).faults = 0) :
    ∃ pattern, (readPattern item).value? = some pattern ∧ item.SpellsPattern pattern := by
  match item, hkey, h with
  | .value _ (.string pattern), rfl, _ => exact ⟨_, rfl, .alone pattern⟩
  | .list _ items, rfl, h =>
    obtain ⟨hpath, hquery, ⟨path, hmem, hkey⟩, hvalue⟩ := readPattern_list h
    rcases readOnce_cases hpath with ⟨hnone, -⟩ | ⟨item, text, hone, hkey, hread, hpathvalue⟩
    · exact absurd (beq_iff_eq.mpr hkey) (List.filter_eq_nil_iff.mp hnone path hmem)
    · obtain rfl := Item.text?_eq_some_iff.mp ⟨hkey, hread⟩
      rw [hvalue, hpathvalue]
      exact ⟨_, rfl, .parts hone (spellsQuery_readOnce hquery)⟩

/-- Assumes: no faults. Patterns are read in their order. -/
theorem forall₂_readPattern
    (h : ∀ item ∈ items, item.key? = some "pattern" ∧ (readPattern item).faults = 0) :
    List.Forall₂ Item.SpellsPattern items ((items.map readPattern).filterMap (·.value?)) := by
  induction items with
  | nil => exact .nil
  | cons item items ih =>
    obtain ⟨hhead, htail⟩ := List.forall_mem_cons.mp h
    obtain ⟨pattern, hvalue, hspells⟩ := spellsPattern_readPattern hhead.1 hhead.2
    rw [List.map_cons, List.filterMap_cons_some hvalue]
    exact .cons hspells (ih htail)

theorem eq_zero_of_foldl {counts : List Nat} {start : Nat} (h : counts.foldl Nat.add start = 0) :
    start = 0 ∧ ∀ count ∈ counts, count = 0 := by
  induction counts generalizing start with
  | nil => exact ⟨h, nofun⟩
  | cons count counts ih =>
    obtain ⟨hsum, hcounts⟩ := ih h
    obtain ⟨hstart, hcount⟩ := Nat.add_eq_zero_iff.mp hsum
    exact ⟨hstart, List.forall_mem_cons.mpr ⟨hcount, hcounts⟩⟩

/-! ### Options as a whole -/

/-- What options take from items. -/
structure MappingOptions.Says (items : List Item) (options : MappingOptions) : Prop where
  owner : ∀ default, IsNamed items default (options.owner?.getD default)
  patterns : List.Forall₂ Item.SpellsPattern (items.filter (·.key? == some "pattern")) options.patterns
  rerouteError : ∀ kind, options.rerouteError? = some kind ↔ .value "reroute_error" (.string kind) ∈ items
  rerouteView : ∀ kind, options.rerouteView? = some kind ↔ .value "reroute_view" (.string kind) ∈ items
  ignores : options.ignores = true ↔ Affirms items "ignore_if_not_matched"
  cratePath : ∀ path, options.cratePath? = some path ↔ ∃ item ∈ items, item.key? = some "crate" ∧ item.path? = some path

/-- Assumes: no faults. Options are what the items say. -/
theorem MappingOptions.says_read (h : (MappingOptions.read items).2 = 0) :
    (MappingOptions.read items).1.Says items := by
  simp only [read, Nat.add_eq_zero_iff] at h
  obtain ⟨⟨⟨⟨⟨⟨howner, hpatterns⟩, herror⟩, hview⟩, hignores⟩, hcrate⟩, -⟩ := h
  refine ⟨isNamed_readText howner, forall₂_readPattern fun item hitem ↦ ?_, fun kind ↦ readText_eq_some_iff herror,
    fun kind ↦ readText_eq_some_iff hview, readTruth_eq_true_iff hignores, fun path ↦ readOnce_eq_some_iff hcrate⟩
  exact ⟨eq_of_beq (List.mem_filter.mp hitem).2,
    (eq_zero_of_foldl hpatterns).2 _ (List.mem_map_of_mem (List.mem_map_of_mem hitem))⟩

/-- What the options of a parameter take from items. -/
structure ParameterOptions.Says (items : List Item) (options : ParameterOptions) : Prop where
  name : ∀ default, IsNamed items default (options.name?.getD default)
  regex : ∀ text, options.regex? = some text ↔ .value "regex" (.string text) ∈ items
  dynamic : options.dynamic = true ↔ Affirms items "dynamic"

/-- Assumes: no faults. The options of a parameter are what the items say. -/
theorem ParameterOptions.says_read (h : (ParameterOptions.read items).2 = 0) :
    (ParameterOptions.read items).1.Says items := by
  simp only [read, Nat.add_eq_zero_iff] at h
  obtain ⟨⟨⟨hname, hregex⟩, hdynamic⟩, -⟩ := h
  exact ⟨isNamed_readText hname, fun text ↦ readText_eq_some_iff hregex, readTruth_eq_true_iff hdynamic⟩

end PathBinding.Derivation
