import PathBinding.Proofs.Regex.Spelling

/-!
Texts that denote expressions in a row. A text writes expressions if it is read as them wherever it is read without
flags (`Writes`). An escaped text writes its characters (`writes_escape`), an expression that can be held together writes
itself in a group (`writes_named`), and what texts write carries over to the groups, the optional groups and the repeated
alternatives around them (`writes_capturing`, `writes_optional`, `writes_pairs`). Groups between bars and anchors
write one alternative of them all (`parse?_writes`).
-/

set_option autoImplicit false
set_option relaxedAutoImplicit false

namespace PathBinding.Regex

/-- The text is read as the expressions in a row, and no question mark of it repeats what stands before. -/
def Writes (x : List Char) (rs : List Regex) : Prop :=
  x.head? ≠ some '?' ∧ ∃ parts, Spells x parts ∧ parts.map (·.regex) = rs

variable {x y : List Char} {rs ss : List Regex}

namespace Writes

theorem nil : Writes [] [] :=
  ⟨by simp, [], .nil, rfl⟩

theorem append (hx : Writes x rs) (hy : Writes y ss) : Writes (x ++ y) (rs ++ ss) := by
  obtain ⟨hxhead, parts, hparts, rfl⟩ := hx
  obtain ⟨hyhead, more, hmore, rfl⟩ := hy
  refine ⟨?_, parts ++ more, hparts.append hmore hyhead, List.map_append⟩
  cases x with
  | nil => exact hyhead
  | cons c x => exact hxhead

theorem flatMap {α : Type} {text : α → List Char} {regexes : α → List Regex} {as : List α}
    (h : ∀ a ∈ as, Writes (text a) (regexes a)) : Writes (as.flatMap text) (as.flatMap regexes) := by
  induction as with
  | nil => exact nil
  | cons a as ih =>
    rw [List.flatMap_cons, List.flatMap_cons]
    exact (h a List.mem_cons_self).append (ih fun b hb ↦ h b (List.mem_cons_of_mem a hb))

end Writes

/-! ### Characters -/

theorem writes_plain {c : Char} (hc : isMeta c = false) : Writes [c] [.set (.single c)] := by
  have hne (d : Char) (hd : isMeta d = true) : c ≠ d := by
    rintro rfl
    rw [hc] at hd
    cases hd
  refine ⟨by simpa using hne '?' rfl, [literalPart c], spells_plain fun hmem ↦ ?_, rfl⟩
  have hall : syntaxCharacters.all isMeta = true := rfl
  exact hne c (List.all_eq_true.mp hall c hmem) rfl

theorem writes_escaped {c : Char} (hc : isMeta c = true) : Writes ['\\', c] [.set (.single c)] :=
  ⟨by simp, [literalPart c], spells_escaped hc, rfl⟩

/-- What characters in a row denote. -/
def characters (text : List Char) : List Regex :=
  text.map fun c ↦ .set (.single c)

theorem writes_escape (text : String) : Writes (escape text).toList (characters text.toList) := by
  rw [escape, String.toList_ofList, characters, List.map_eq_flatMap]
  refine .flatMap fun c _ ↦ ?_
  cases hc : isMeta c with
  | true => exact writes_escaped hc
  | false => exact writes_plain hc

/-! ### Groups -/

/-- The expression is no alternative, so it stays a branch of its own. -/
def Unbranched (r : Regex) : Prop :=
  r.branches = [r]

theorem unbranched_sequence (h : ∀ r ∈ rs, Unbranched r) : Unbranched (sequence rs) :=
  sequence_of_forall (P := Unbranched) rfl (fun _ _ _ _ ↦ rfl) h

theorem alternatives_one {parts : List Part} (hparts : parts.map (·.regex) = rs) (h : Unbranched (sequence rs)) :
    alternatives [parts] = sequence rs := by
  rw [alternatives, List.map_singleton, hparts]
  exact alternation_singleton h

theorem writes_capturing {name : String} (hname : IsGroupName name) (hx : Writes x rs) (h : Unbranched (sequence rs)) :
    Writes (openNamed name ++ x ++ [')']) [.group (some name) (sequence rs)] := by
  obtain ⟨-, parts, hparts, hrs⟩ := hx
  refine ⟨by simp [openNamed], _, spells_capturing hname hparts, ?_⟩
  rw [List.map_singleton, ← alternatives_one hrs h]
  rfl

theorem writes_optional (hx : Writes x rs) (h : Unbranched (sequence rs)) :
    Writes (['(', '?', ':'] ++ x ++ [')', '?']) [.repeat 0 (some 1) true (sequence rs)] := by
  obtain ⟨-, parts, hparts, hrs⟩ := hx
  refine ⟨by simp, _, spells_optional hparts, ?_⟩
  have hrepeat (r : Regex) : repetition 0 (some 1) true r = .repeat 0 (some 1) true r := by
    cases hr : r.consumesNothing <;> simp [repetition, hr]
  rw [List.map_singleton, ← alternatives_one hrs h]
  exact congrArg ([·]) (hrepeat _)

/-- The text of an expression that can be held together. -/
def heldText (regex : String) : List Char :=
  ['(', '?', ':'] ++ regex.toList ++ [')']

/-- What a text denotes, held together. -/
def held? (regex : String) : Option Regex :=
  part? (heldText regex)

theorem interior_of_held? {regex : String} {body : Regex} (h : held? regex = some body) :
    ∃ inner, Interior {} (regex.toList ++ [')']) inner ∧ inner.level.close.regex = body := by
  obtain ⟨names, height, htake⟩ := takeAll_of_part? h
  have htext : heldText regex = '(' :: ('?' :: ':' :: (regex.toList ++ [')'])) := by
    simp [heldText]
  rw [htext] at htake
  have hlast : ('(' :: ('?' :: ':' :: (regex.toList ++ [')']))).getLast? = some ')' := by
    rw [← htext, heldText, List.getLast?_concat]
  have hgrouped := grouped_of_takeAll htake rfl hlast
  generalize hpart : (⟨body, height, true⟩ : Part) = part at hgrouped
  cases hgrouped with
  | @mk _ _ rest' token grouping changes own inner read opens interior fresh =>
    have hopen : Token.read {} '(' ('?' :: ':' :: (regex.toList ++ [')'])) = some (.scope [], regex.toList ++ [')']) := rfl
    cases hopen.symm.trans read
    cases opens
    exact ⟨inner, interior, (Part.mk.inj hpart).1.symm⟩

theorem writes_named {name : String} (hname : IsGroupName name) {regex : String} {body : Regex}
    (h : held? regex = some body) :
    Writes (openNamed name ++ regex.toList ++ [')']) [.group (some name) body] := by
  obtain ⟨inner, hinner, rfl⟩ := interior_of_held? h
  exact ⟨by simp [openNamed], _, spells_named hname hinner, rfl⟩

/-! ### Repeated alternatives -/

/-- Any number of characters but ampersands. -/
def unseparated : Regex :=
  .repeat 0 none true (.set (.compl (.single '&')))

theorem spells_unseparated : ∃ part, Spells ['[', '^', '&', ']', '*'] [part] ∧ part.regex = unseparated := by
  have hset : Spells ['[', '^', '&', ']'] [⟨.set (.compl (.single '&')), 1, true⟩] := spells_atom fun _ ↦ rfl
  exact ⟨_, spells_star hset rfl, rfl⟩

theorem exists_spells {xs : List (List Char)} {branches : List (List Regex)} (h : List.Forall₂ Writes xs branches) :
    ∃ parts, List.Forall₂ Spells xs parts ∧ parts.map (List.map fun part : Part ↦ part.regex) = branches := by
  induction h with
  | nil => exact ⟨[], .nil, rfl⟩
  | cons hx _ ih =>
    obtain ⟨-, own, hown, hregex⟩ := hx
    obtain ⟨parts, hparts, hregexes⟩ := ih
    exact ⟨own :: parts, .cons hown hparts, by rw [List.map_cons, hregex, hregexes]⟩

theorem altAll_concat_ne_empty (rs : List Regex) {last : Regex} (hlast : last ≠ .empty) :
    altAll (rs ++ [last]) ≠ .empty := by
  cases rs with
  | nil => exact hlast
  | cons r rs =>
    cases rs with
    | nil => exact nofun
    | cons s rs => exact nofun

theorem sequence_pair {a : Regex} (ha : a ≠ .empty) (chars : CharSet) : sequence [a, .set chars] = .seq a (.set chars) := by
  cases a with
  | empty => exact absurd rfl ha
  | _ => rfl

/-- Alternatives of which the last is text without ampersands are kept as they are. -/
theorem alternatives_unseparated {parts : List (List Part)} {last : Part} (hlast : last.regex = unseparated)
    (h : ∀ rs ∈ parts.map (List.map fun part : Part ↦ part.regex), ∀ r ∈ rs, Unbranched r) :
    alternatives (parts ++ [[last]]) =
      altAll (parts.map (fun own ↦ sequence (own.map (·.regex))) ++ [unseparated]) := by
  have hmap : (parts ++ [[last]]).map (fun own ↦ sequence (own.map (·.regex))) =
      parts.map (fun own ↦ sequence (own.map (·.regex))) ++ [unseparated] := by
    rw [List.map_append, List.map_singleton, List.map_singleton, hlast]
    rfl
  rw [alternatives, hmap]
  refine alternation_eq (fun r hr ↦ ?_) (List.mem_append_right _ List.mem_cons_self) rfl (Nat.lt_succ_self 1)
  rcases List.mem_append.mp hr with hr | hr
  · obtain ⟨own, hown, rfl⟩ := List.mem_map.mp hr
    exact unbranched_sequence (h _ (List.mem_map_of_mem hown))
  · rw [List.mem_singleton.mp hr]
    rfl

/-- The text of alternatives in front of an ampersand, repeated as often as one likes. -/
def pairsText (xs : List (List Char)) : List Char :=
  ['(', '?', ':'] ++ (['(', '?', ':'] ++ ['|'].intercalate (xs ++ [['[', '^', '&', ']', '*']]) ++ [')'] ++ ['&']) ++
    [')'] ++ ['*']

/-- One of some sequences, or else text without ampersands, in front of an ampersand. -/
def pair (branches : List (List Regex)) : Regex :=
  .seq (altAll (branches.map sequence ++ [unseparated])) (.set (.single '&'))

/-- Assumes: the texts write expressions that are no alternatives. -/
theorem writes_pairs {xs : List (List Char)} {branches : List (List Regex)} (hxs : List.Forall₂ Writes xs branches)
    (h : ∀ rs ∈ branches, ∀ r ∈ rs, Unbranched r) : Writes (pairsText xs) [.repeat 0 none true (pair branches)] := by
  obtain ⟨last, hlast, hregex⟩ := spells_unseparated
  obtain ⟨parts, hparts, rfl⟩ := exists_spells hxs
  have hinner : Spells (['(', '?', ':'] ++ ['|'].intercalate (xs ++ [['[', '^', '&', ']', '*']]) ++ [')'])
      [scopePart (parts ++ [[last]])] :=
    spells_scope (List.rel_append hparts (.cons hlast .nil)) (by simp)
  have hampersand : Spells ['&'] [literalPart '&'] := spells_plain (by decide)
  have houter := spells_scope (.cons (hinner.append hampersand (by simp)) .nil) (List.cons_ne_nil _ _)
  rw [List.intercalate_singleton] at houter
  refine ⟨by simp [pairsText], _, spells_star houter rfl, ?_⟩
  have hne : altAll (parts.map (fun own ↦ sequence (own.map (·.regex))) ++ [unseparated]) ≠ .empty :=
    altAll_concat_ne_empty _ nofun
  have hpair : alternatives [[scopePart (parts ++ [[last]]), literalPart '&']] =
      pair (parts.map (List.map fun part : Part ↦ part.regex)) := by
    have hscope : (scopePart (parts ++ [[last]])).regex = alternatives (parts ++ [[last]]) := rfl
    rw [alternatives, List.map_singleton, List.map_cons, hscope, alternatives_unseparated hregex h, pair, List.map_map]
    change alternation [sequence [altAll _, .set (.single '&')]] = _
    rw [sequence_pair hne]
    exact alternation_singleton rfl
  have hstar : repetition 0 none true (pair (parts.map (List.map fun part : Part ↦ part.regex))) =
      .repeat 0 none true (pair (parts.map (List.map fun part : Part ↦ part.regex))) := by
    simp [repetition, pair, consumesNothing]
  rw [← hstar, ← hpair]
  rfl

/-! ### Groups between bars and anchors -/

/-- Assumes: each text writes one named group. -/
theorem parse?_writes {xs : List (List Char)} {groups : List Regex} (hxs : List.Forall₂ (fun x r ↦ Writes x [r]) xs groups)
    (hgroups : ∀ r ∈ groups, ∃ name body, r = .group name body) (hne : groups ≠ []) {r : Regex}
    (hr : parse? (['^', '(', '?', ':'] ++ ['|'].intercalate xs ++ [')', '$']) = some r) :
    r = .sequence [.look .textStart, altAll groups, .look .textEnd] := by
  have hwrites : List.Forall₂ Writes xs (groups.map ([·])) := by
    rwa [List.forall₂_map_right_iff]
  obtain ⟨parts, hparts, hregexes⟩ := exists_spells hwrites
  have hone : parts.map (fun own ↦ sequence (own.map (·.regex))) = groups := by
    have hsequence := congrArg (List.map sequence) hregexes
    rw [List.map_map, List.map_map] at hsequence
    refine hsequence.trans ((List.map_congr_left fun r hr ↦ ?_).trans (List.map_id groups))
    obtain ⟨name, body, rfl⟩ := hgroups r hr
    rfl
  have hpartsne : parts ≠ [] := by
    rintro rfl
    exact hne (List.map_eq_nil_iff.mp hregexes.symm)
  rw [(parse?_anchored hparts hpartsne hr).1, anchored, alternatives, hone, alternation_groups hgroups]

end PathBinding.Regex
