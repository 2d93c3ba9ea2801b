import PathBinding.Proofs.Application
import PathBinding.Proofs.WrittenGroups

/-!
What selections read from groups. A selection takes the text of a parameter from what the match captures under the name of
its group (`captured?_select`), and that comes from the place at which the group is written for the pattern and the
parameter, provided that the reader takes what is written there for a group (`captures_where_written`). Text that is copied
may put what is written into a comment; then the name may belong to a group of the text (`commented_captures`).
-/

set_option autoImplicit false
set_option relaxedAutoImplicit false

namespace PathBinding

open Regex

namespace Mapping

variable {declaration : Declaration} {settings : Settings} {mapping : Mapping}

/-- All groups of a pattern have names that the reader can read. -/
theorem isGroupName_of_mem {i : Nat} {pattern : PatternDeclaration} {c : Definition × Pieces}
    (hpattern : declaration.patterns[i]? = some pattern) (hok : Fragment.compile declaration pattern i = .ok c)
    {name : String} (hname : name ∈ c.1.groupNames) : IsGroupName name := by
  obtain ⟨path, parts, hdeclares⟩ := exists_declares hpattern hok
  rcases List.mem_cons.mp hname with rfl | hgroup
  · exact Fragment.isGroupName_fragmentName _
  obtain ⟨parameter, hparameter, rfl⟩ := List.mem_map.mp hgroup
  refine Fragment.isGroupName_groupNameIn _ ?_
  rw [(hdeclares.compiled hok).1, List.mem_append] at hparameter
  rcases hparameter with hpath | hquery
  · obtain ⟨p, hp, rfl⟩ := List.mem_map.mp hpath
    exact Segment.named_of_parse hdeclares.parsed p hp
  · obtain ⟨part, hpart, rfl⟩ := List.mem_map.mp hquery
    exact Fragment.isName_of_mem hdeclares.queries part hpart

/-- The group of a name is written at the place and nowhere else. Where the reader comes to it, captures come from there;
where it does not, what is written there is no group, and its name does not matter. -/
structure IsWrittenAt (stretches : List Stretch) (regex : Regex) (name : String) (place : List Char) : Prop where
  begins : BeginsIn stretches name place
  unique : ∀ other, BeginsIn stretches name other → other = place
  captures : BeginsAt (textOf stretches) place → CapturesFrom (textOf stretches) place name
  copied : ¬BeginsAt (textOf stretches) place → ∀ fresh, parseAs? place fresh (textOf stretches) = some regex

/-- The text that a selection has for a parameter of the winner is what the match captures under the name of its group. -/
theorem captured?_select {regex : Regex} {path : String} {definition : Definition}
    (hwinner : (mapping.select regex path).winner = some definition) :
    ∃ t, regex.search (normalizePath path).toList = some t ∧ ∀ parameter ∈ definition.parameters,
      (mapping.select regex path).captured? parameter =
        (t.captured? (definition.groupName parameter)).map String.ofList := by
  unfold select select? at hwinner ⊢
  cases hsearch : regex.search (normalizePath path).toList with
  | none =>
    rw [hsearch] at hwinner
    cases hwinner
  | some t =>
    rw [hsearch, Option.map_some, Option.getD_some] at hwinner
    refine ⟨t, rfl, fun parameter hparameter ↦ ?_⟩
    rw [Option.map_some, Option.getD_some]
    rcases choose_cases mapping t with hnone | ⟨own, -, hchosen⟩
    · rw [hnone] at hwinner
      cases hwinner
    · rw [hchosen] at hwinner ⊢
      cases hwinner
      rw [Selection.captured?, lookup_capturedBy, if_pos hparameter]

/-- The groups that are written for a mapping have names of their own, each is written at one place, and where the reader
takes what is written there for a group, a selection reads from that group. If all that is copied into the expression keeps
to itself, the reader takes it for a group. -/
theorem captures_where_written (hbuild : build declaration settings = .ok mapping) :
    (mapping.patterns.flatMap Definition.groupNames).Nodup ∧
      ∀ (producers : Producers) (view : View) (regex : Regex),
        Completes declaration settings mapping producers view regex →
        let stretches := declaration.stretches (mapping.filling producers view)
        parse? (textOf stretches) = some regex ∧
          (∀ definition ∈ mapping.patterns, ∀ name ∈ definition.groupNames, ∃ place,
            IsWrittenAt stretches regex name place ∧
              (declaration.IsTidy (mapping.filling producers view) → BeginsAt (textOf stretches) place)) ∧
          ∀ path definition, (mapping.select regex path).winner = some definition →
            ∃ t, regex.search (normalizePath path).toList = some t ∧ ∀ parameter ∈ definition.parameters,
              (mapping.select regex path).captured? parameter =
                (t.captured? (definition.groupName parameter)).map String.ofList := by
  have hnodup := nodup_flatMap_groupNames hbuild
  refine ⟨hnodup, fun producers view regex hcompletes ↦ ?_⟩
  obtain ⟨compiled, hcompiled, hpatterns, hparse⟩ := hcompletes.compiled
  obtain ⟨htext, hnames⟩ := stretches_of_compiled hcompiled (mapping.filling producers view)
  rw [← htext] at hparse
  rw [hpatterns, ← hnames] at hnodup
  refine ⟨hparse, fun definition hdefinition name hname ↦ ?_, fun path definition ↦ captured?_select⟩
  rw [hpatterns] at hdefinition
  obtain ⟨c, hc, rfl⟩ := List.mem_map.mp hdefinition
  obtain ⟨i, hi⟩ := List.mem_iff_getElem?.mp hc
  obtain ⟨pattern, hpattern, hok⟩ := compile_of_compileFrom hcompiled hi
  rw [Nat.zero_add] at hok
  have hgroup := isGroupName_of_mem hpattern hok hname
  have hmem : name ∈ namesOf (declaration.stretches (mapping.filling producers view)) :=
    hnames ▸ List.mem_flatMap.mpr ⟨c.1, hdefinition, hname⟩
  obtain ⟨place, hbegins, hunique⟩ := existsUnique_beginsIn hnodup hmem
  refine ⟨place, ⟨hbegins, hunique, fun hat ↦ ?_, fun hnot fresh ↦ parseAs?_eq hnot hparse⟩, fun htidy ↦ ?_⟩
  · obtain ⟨before, after, -, rfl⟩ := hbegins
    exact capturesFrom_of_beginsAt hgroup hparse hat
  · exact beginsAt_of_passed (passed_stretches hcompiled htidy) hparse hbegins

/-- A view that nothing has been written to. -/
def blankView : View :=
  ⟨⟨.anyExcept [], false⟩, [], none⟩

/-- Two patterns whose parameters have digits and underscores in their names. -/
def numbered : Declaration :=
  { owner := "Numbered"
    parameters := [⟨"x", .string, none, false⟩, ⟨"0_x", .integer, none, false⟩]
    patterns := [⟨"a/:x", ["k=:0_x"]⟩, ⟨":0_x/b", []⟩] }

theorem isTidy_numbered (filling : String → String) : numbered.IsTidy filling := by
  have hword : Fragment.IsSelfContained "[^/]+" := by decide +kernel
  have hnumber : Fragment.IsSelfContained "-?[0-1]?[0-9]\x7b1,9\x7d" := by decide +kernel
  rintro i pattern path parts ⟨hpattern, hparse, hparts⟩
  match i with
  | 0 =>
    cases hpattern
    obtain rfl : [.literal "/a/", .placeholder "x" none] = path := Except.ok.inj (Eq.trans rfl hparse)
    obtain rfl : [⟨"k", "0_x", none⟩] = parts :=
      List.map_injective_iff.mpr (Option.some_injective _) (Eq.trans rfl hparts)
    exact ⟨List.forall_mem_singleton.mpr rfl, List.forall_mem_singleton.mpr hword, List.forall_mem_singleton.mpr hnumber⟩
  | 1 =>
    cases hpattern
    obtain rfl : [.literal "/", .placeholder "0_x" none, .literal "/b"] = path := Except.ok.inj (Eq.trans rfl hparse)
    obtain rfl : [] = parts := List.map_injective_iff.mpr (Option.some_injective _) (Eq.trans rfl hparts)
    exact ⟨List.forall_mem_cons.mpr ⟨rfl, List.forall_mem_singleton.mpr rfl⟩, List.forall_mem_singleton.mpr hnumber, nofun⟩
  | i + 2 => cases hpattern

/-- The number in the second pattern is read from the group that is written for it there. -/
theorem captures_where_written_numbered : ∃ mapping regex definition place, build numbered {} = .ok mapping ∧
    Completes numbered {} mapping [] blankView regex ∧ definition ∈ mapping.patterns ∧ definition.index = 1 ∧
    (mapping.select regex "7/b").winner = some definition ∧ (mapping.select regex "7/b").captured? "0_x" = some "7" ∧
    IsWrittenAt (numbered.stretches (mapping.filling [] blankView)) regex (definition.groupName "0_x") place ∧
    CapturesFrom (textOf (numbered.stretches (mapping.filling [] blankView))) place (definition.groupName "0_x") := by
  have hevaluated : (staticBuild? numbered {}).any fun found ↦
      decide ((found.1.select found.2 "7/b").captured? "0_x" = some "7") &&
        (found.1.select found.2 "7/b").winner.any fun definition ↦
          decide (definition ∈ found.1.patterns ∧ definition.index = 1 ∧ definition.parameters = ["0_x"]) := by
    decide +kernel
  obtain ⟨found, hfound, hselect⟩ := (Option.any_eq_true _ _).mp hevaluated
  obtain ⟨hcaptured, hwinner⟩ := Bool.and_eq_true_iff.mp hselect
  obtain ⟨definition, hwinner, hdefinition⟩ := (Option.any_eq_true _ _).mp hwinner
  obtain ⟨hmem, hindex, hparameters⟩ := of_decide_eq_true hdefinition
  obtain ⟨text, hbuild, hstatic⟩ := staticBuild?_eq_some hfound
  have hcompletes := completes_of_static hbuild hstatic [] blankView
  obtain ⟨-, hwritten, -⟩ := (captures_where_written hbuild).2 [] blankView found.2 hcompletes
  have hgroup : definition.groupName "0_x" ∈ definition.groupNames := by
    rw [Definition.groupNames, hparameters]
    exact List.mem_cons_of_mem _ List.mem_cons_self
  obtain ⟨place, hplace, htidy⟩ := hwritten definition hmem _ hgroup
  exact ⟨found.1, found.2, definition, place, hbuild, hcompletes, hmem, hindex, hwinner, of_decide_eq_true hcaptured, hplace,
    hplace.captures (htidy (isTidy_numbered _))⟩

/-- Text around a parameter that makes a comment of its group, and brings a group of the same name. -/
def commented : Declaration :=
  { owner := "Commented"
    parameters := [⟨"id", .string, none, false⟩]
    patterns := [⟨"(?x:#:id\n(?P<p0_id>a))", []⟩] }

/-- The text for the parameter does not come from the place at which its group is written. -/
theorem commented_captures : ∃ found definition place, staticBuild? commented {} = some found ∧
    Completes commented {} found.1 [] blankView found.2 ∧ definition ∈ found.1.patterns ∧
    definition.parameters = ["id"] ∧ (found.1.select found.2 "/a").captured? "id" = some "a" ∧
    BeginsIn (commented.stretches (found.1.filling [] blankView)) (definition.groupName "id") place ∧
    ¬CapturesFrom (textOf (commented.stretches (found.1.filling [] blankView))) place (definition.groupName "id") := by
  have hevaluated : (staticBuild? commented {}).any fun found ↦
      let stretches := commented.stretches (found.1.filling [] blankView)
      decide (found.1.patterns = [⟨"(?x:#:id\n(?P<p0_id>a))", 0, ["id"], [], []⟩] ∧
        (found.1.select found.2 "/a").captured? "id" = some "a" ∧
        stretches = stretches.take 4 ++ .opening "p0_id" :: stretches.drop 5 ∧
        parse? (textOf stretches) = some found.2 ∧ "other" ∉ namesIn (textOf stretches) ∧
        parseAs? (textOf (.opening "p0_id" :: stretches.drop 5)) "other" (textOf stretches) = some found.2 ∧
        ((found.2.search "/a?&".toList).map (·.captured? "other")) ≠
          (found.2.search "/a?&".toList).map (·.captured? "p0_id")) := by
    decide +kernel
  obtain ⟨found, hfound, hevaluated⟩ := (Option.any_eq_true _ _).mp hevaluated
  obtain ⟨hpatterns, hcaptured, hstretches, hparse, hother, hparseAs, hne⟩ := of_decide_eq_true hevaluated
  obtain ⟨text, hbuild, hstatic⟩ := staticBuild?_eq_some hfound
  refine ⟨found, _, _, hfound, completes_of_static hbuild hstatic [] blankView, hpatterns ▸ List.mem_cons_self, rfl,
    hcaptured, ⟨_, _, hstretches, rfl⟩, fun hfrom ↦ ?_⟩
  obtain ⟨regex, regex', hregex, hregex', hsame⟩ := hfrom "other" hother
  cases hparse.symm.trans hregex
  cases hparseAs.symm.trans hregex'
  exact hne (hsame _)

end Mapping

end PathBinding
