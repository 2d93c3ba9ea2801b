import Mathlib.Data.List.TakeWhile
import PathBinding.Proofs.Registry

/-!
Paths in normal form. Behind any slashes in front, a path is kept as it is between one slash and a closing that has what
the path lacks of a question mark and a final ampersand (`toList_normalizePath`). So a path in normal form is its own
normal form (`normalizePath_normalizePath`), slashes in front of a path change nothing (`normalizePath_slashes`), and
since a match looks at the normal form alone, all these paths are matched alike (`matched_in_normal_form`).
-/

set_option autoImplicit false
set_option relaxedAutoImplicit false

namespace PathBinding

/-! ### The shape of a normal form -/

/-- What the normal form puts behind a path that begins with no slash. -/
def closing (rest : List Char) : List Char :=
  if '?' ∈ rest then if rest.getLast? = some '&' then [] else ['&'] else ['?', '&']

/-- A text is slashes and a rest that begins with none. -/
theorem exists_slashes (text : List Char) : ∃ n rest, text = List.replicate n '/' ++ rest ∧ rest.head? ≠ some '/' := by
  refine ⟨(text.takeWhile (· == '/')).length, text.dropWhile (· == '/'), ?_, fun hslash ↦ ?_⟩
  · have hslashes : text.takeWhile (· == '/') = List.replicate (text.takeWhile (· == '/')).length '/' :=
      List.eq_replicate_iff.mpr ⟨rfl, fun c hc ↦ by simpa using List.mem_takeWhile_imp hc⟩
    rw [← hslashes, List.takeWhile_append_dropWhile]
  · have hhead := List.head?_dropWhile_not (· == '/') text
    rw [hslash] at hhead
    cases hhead

theorem dropWhile_slashes (n : Nat) {rest : List Char} (hrest : rest.head? ≠ some '/') :
    (List.replicate n '/' ++ rest).dropWhile (· == '/') = rest := by
  have hslashes : ∀ c ∈ List.replicate n '/', (c == '/') = true := fun c hc ↦ by
    rw [List.eq_of_mem_replicate hc, beq_self_eq_true]
  rw [List.dropWhile_append_of_pos hslashes]
  cases rest with
  | nil => rfl
  | cons c rest => exact List.dropWhile_cons_of_neg (by simpa using hrest)

/-- The normal form of a path is one slash, the path without its leading slashes, and the closing of that. -/
theorem toList_normalizePath {path : String} {n : Nat} {rest : List Char}
    (hpath : path.toList = List.replicate n '/' ++ rest) (hrest : rest.head? ≠ some '/') :
    (normalizePath path).toList = '/' :: rest ++ closing rest := by
  unfold normalizePath
  rw [hpath, dropWhile_slashes n hrest]
  extract_lets rooted queried
  rw [String.toList_ofList]
  by_cases hmark : '?' ∈ rest
  · have hqueried : queried = '/' :: rest := if_pos (by simpa [rooted] using hmark)
    have hlast : ('/' :: rest).getLast? = rest.getLast? := by
      obtain ⟨c, tail, rfl⟩ := List.exists_cons_of_ne_nil (List.ne_nil_of_mem hmark)
      rfl
    rw [hqueried, hlast, closing, if_pos hmark]
    split
    · rw [List.append_nil]
    · rfl
  · have hqueried : queried = '/' :: rest ++ ['?'] := if_neg (by simpa [rooted] using hmark)
    have hlast : ('/' :: rest ++ ['?']).getLast? ≠ some '&' := by
      rw [List.getLast?_concat]
      decide
    rw [hqueried, if_neg hlast, closing, if_neg hmark, List.append_assoc]
    rfl

/-! ### What all normal forms have in common -/

theorem head?_closing {rest : List Char} (hrest : rest.head? ≠ some '/') : (rest ++ closing rest).head? ≠ some '/' := by
  cases rest with
  | nil => decide
  | cons c rest => exact hrest

/-- Behind its closing a path lacks nothing. -/
theorem mem_closing_and_getLast? (rest : List Char) :
    '?' ∈ rest ++ closing rest ∧ (rest ++ closing rest).getLast? = some '&' := by
  unfold closing
  split
  · next hmark =>
    refine ⟨List.mem_append_left _ hmark, ?_⟩
    split
    · next hlast => rwa [List.append_nil]
    · exact List.getLast?_concat
  · exact ⟨by simp, by simp⟩

theorem closing_closing (rest : List Char) : closing (rest ++ closing rest) = [] := by
  obtain ⟨hmark, hlast⟩ := mem_closing_and_getLast? rest
  rw [closing, if_pos hmark, if_pos hlast]

/-- A path in normal form begins with one slash. -/
theorem normalizePath_slash (path : String) :
    ∃ rest, (normalizePath path).toList = '/' :: rest ∧ rest.head? ≠ some '/' := by
  obtain ⟨n, rest, hpath, hrest⟩ := exists_slashes path.toList
  exact ⟨_, toList_normalizePath hpath hrest, head?_closing hrest⟩

theorem getLast?_normalizePath (path : String) : (normalizePath path).toList.getLast? = some '&' := by
  obtain ⟨n, rest, hpath, hrest⟩ := exists_slashes path.toList
  obtain ⟨hmark, hlast⟩ := mem_closing_and_getLast? rest
  rw [toList_normalizePath hpath hrest, List.cons_append, List.getLast?_cons, hlast]
  rfl

/-- A path in normal form has a question mark, and behind the first one it ends in an ampersand. -/
theorem exists_query (path : String) :
    ∃ front query, (normalizePath path).toList = front ++ '?' :: query ++ ['&'] ∧ '?' ∉ front := by
  obtain ⟨n, rest, hpath, hrest⟩ := exists_slashes path.toList
  obtain ⟨hmark, hlast⟩ := mem_closing_and_getLast? rest
  obtain ⟨front, behind, hsplit, hfront⟩ := List.eq_append_cons_of_mem hmark
  rw [toList_normalizePath hpath hrest, List.cons_append, hsplit]
  have hbehind : behind.getLast? = some '&' := by
    rw [hsplit, List.getLast?_append] at hlast
    cases behind with
    | nil => cases hlast
    | cons c behind => simpa using hlast
  obtain ⟨query, rfl⟩ := List.getLast?_eq_some_iff.mp hbehind
  refine ⟨'/' :: front, query, ?_, fun hin ↦ (List.mem_cons.mp hin).elim (by decide) hfront⟩
  rw [List.cons_append, List.cons_append, List.append_assoc, List.cons_append]

/-- What a path in normal form has in front of a question mark begins with one slash too. -/
theorem front_slash {path : String} {e q : List Char} (h : (normalizePath path).toList = e ++ '?' :: q) :
    ∃ rest, e = '/' :: rest ∧ rest.head? ≠ some '/' := by
  obtain ⟨rest, hrest, hslash⟩ := normalizePath_slash path
  rw [hrest] at h
  cases e with
  | nil => exact absurd (List.cons.inj h).1 (by decide)
  | cons c e =>
    obtain ⟨rfl, rfl⟩ := List.cons.inj h
    refine ⟨e, rfl, ?_⟩
    cases e with
    | nil => simp
    | cons d e => exact hslash

/-! ### Normal forms of related paths -/

theorem normalizePath_normalizePath (path : String) : normalizePath (normalizePath path) = normalizePath path := by
  obtain ⟨n, rest, hpath, hrest⟩ := exists_slashes path.toList
  have hnormal : (normalizePath path).toList = List.replicate 1 '/' ++ (rest ++ closing rest) :=
    toList_normalizePath hpath hrest
  rw [← String.toList_inj, toList_normalizePath hnormal (head?_closing hrest), closing_closing, List.append_nil,
    hnormal]
  rfl

theorem normalizePath_slashes (n : Nat) (path : String) :
    normalizePath (.ofList (List.replicate n '/' ++ path.toList)) = normalizePath path := by
  obtain ⟨m, rest, hpath, hrest⟩ := exists_slashes path.toList
  have hslashes : (String.ofList (List.replicate n '/' ++ path.toList)).toList = List.replicate (n + m) '/' ++ rest := by
    rw [String.toList_ofList, hpath, ← List.append_assoc, List.replicate_append_replicate]
  rw [← String.toList_inj, toList_normalizePath hslashes hrest, toList_normalizePath hpath hrest]

/-- A query in its normal form ends in an ampersand. -/
def ended (query : List Char) : List Char :=
  if query.getLast? = some '&' then query else query ++ ['&']

theorem notMem_ended {c : Char} {query : List Char} (h : c ∉ query) (hc : c ≠ '&') : c ∉ ended query := by
  unfold ended
  split
  · exact h
  · simpa using ⟨h, hc⟩

/-- With a question mark, what stands in front of it is brought to one leading slash and what stands behind it to a final
ampersand. -/
theorem normalizePath_mark (front query : String) :
    (normalizePath (front ++ "?" ++ query)).toList =
      ('/' :: front.toList.dropWhile (· == '/')) ++ '?' :: ended query.toList := by
  obtain ⟨n, rest, hfront, hrest⟩ := exists_slashes front.toList
  have hpath : (front ++ "?" ++ query).toList = List.replicate n '/' ++ (rest ++ '?' :: query.toList) := by
    simp [String.toList_append, hfront]
  have hhead : (rest ++ '?' :: query.toList).head? ≠ some '/' := by
    cases rest with
    | nil => simp
    | cons c rest => exact hrest
  have hlast : (rest ++ '?' :: query.toList).getLast? = some '&' ↔ query.toList.getLast? = some '&' := by
    rw [List.getLast?_append]
    cases query.toList with
    | nil => simp
    | cons c query => simp
  rw [toList_normalizePath hpath hhead, hfront, dropWhile_slashes n hrest, closing, if_pos (by simp), ended]
  by_cases hquery : query.toList.getLast? = some '&'
  · rw [if_pos (hlast.mpr hquery), if_pos hquery]
    simp
  · rw [if_neg (mt hlast.mp hquery), if_neg hquery]
    simp

/-- A rendered path is brought to one slash in front of it and an empty query behind it. -/
theorem normalizePath_rendered {e s rest : List Char} (hslash : e = '/' :: rest) (hrest : rest.head? ≠ some '/')
    (hmark : '?' ∉ e) (h : e = s ∨ e = '/' :: s) : (normalizePath (.ofList s)).toList = e ++ ['?', '&'] := by
  obtain ⟨n, hn⟩ : ∃ n, s = List.replicate n '/' ++ rest := by
    rcases h with rfl | hs
    · exact ⟨1, hslash⟩
    · exact ⟨0, (List.cons.inj (hs.symm.trans hslash)).2⟩
  have hnone : '?' ∉ rest := fun hin ↦ hmark (hslash ▸ List.mem_cons_of_mem _ hin)
  rw [toList_normalizePath (String.toList_ofList.trans hn) hrest, closing, if_neg hnone, hslash]

/-- Up to the first question mark, a path and its normal form differ in slashes alone. -/
theorem mem_front_normalizePath {c : Char} (hc : c ≠ '/') (path : String) :
    c ∈ (normalizePath path).toList.takeWhile (· != '?') ↔ c ∈ path.toList.takeWhile (· != '?') := by
  obtain ⟨n, rest, hpath, hrest⟩ := exists_slashes path.toList
  have hclosing : (rest ++ closing rest).takeWhile (· != '?') = rest.takeWhile (· != '?') := by
    rw [List.takeWhile_append]
    split
    · next hlength =>
      have hwhole : rest.takeWhile (· != '?') = rest := (List.takeWhile_prefix _).eq_of_length hlength
      have hmark : '?' ∉ rest := by
        intro hin
        rw [← hwhole] at hin
        exact absurd (List.mem_takeWhile_imp hin) (by decide)
      have hnone : (closing rest).takeWhile (· != '?') = [] := by
        rw [closing, if_neg hmark]
        rfl
      rw [hnone, List.append_nil, hwhole]
    · rfl
  have hslashes (k : Nat) : c ∉ List.replicate k '/' := fun hin ↦ hc (List.eq_of_mem_replicate hin)
  have hfront (k : Nat) (text : List Char) : c ∈ (List.replicate k '/' ++ text).takeWhile (· != '?') ↔
      c ∈ text.takeWhile (· != '?') := by
    have hpos : ∀ d ∈ List.replicate k '/', (d != '?') = true := fun d hd ↦ by
      rw [List.eq_of_mem_replicate hd]
      rfl
    rw [List.takeWhile_append_of_pos hpos, List.mem_append, or_iff_right (hslashes k)]
  have hnormal : (normalizePath path).toList = List.replicate 1 '/' ++ (rest ++ closing rest) :=
    toList_normalizePath hpath hrest
  rw [hnormal, hpath, hfront, hfront, hclosing]

/-! ### Matches of paths with one normal form -/

/-- Two paths are matched alike: by each mapping with the same changes, events and answer, and by each registry with the
same view, mappings and answer. The trace of a registry also tells the path as it was given. -/
def MatchedAlike (path path' : String) : Prop :=
  (∀ (mapping : Mapping) (producers : Producers) (view : View),
    mapping.bind producers view path = mapping.bind producers view path') ∧
  ∀ (registry : Registry) (key : TypeKey) (declaration : Declaration) (view : View),
    let matched := registry.matchPath key declaration view path
    let matched' := registry.matchPath key declaration view path'
    matched.1 = matched'.1 ∧ matched.2.registry = matched'.2.registry ∧ matched.2.result = matched'.2.result

/-- A match looks at nothing but the normal form of a path. -/
theorem matchedAlike_of_normalizePath {path path' : String} (h : normalizePath path = normalizePath path') :
    MatchedAlike path path' := by
  have hbind (mapping : Mapping) (producers : Producers) (view : View) :
      mapping.bind producers view path = mapping.bind producers view path' := by
    simp only [Mapping.bind, Mapping.bindWith, Mapping.select?, Mapping.selectionEvents, h]
  refine ⟨hbind, fun registry key declaration view ↦ ?_⟩
  cases hmapping : (registry.mapping key declaration).result with
  | error e =>
    rw [registry.matchPath_of_fault hmapping, registry.matchPath_of_fault hmapping]
    exact ⟨rfl, rfl, rfl⟩
  | ok mapping =>
    rw [registry.matchPath_of_mapping hmapping, registry.matchPath_of_mapping hmapping, hbind]
    exact ⟨rfl, rfl, rfl⟩

/-- The normal form of a path is one slash, the path without its leading slashes, and nothing, an ampersand or an empty
query. It begins with one slash, it has a question mark, and behind the first question mark it ends in an ampersand. It
is its own normal form, and it is matched as the path is, with any number of slashes in front. -/
theorem matched_in_normal_form (path : String) :
    (∃ n rest tail, path.toList = List.replicate n '/' ++ rest ∧ rest.head? ≠ some '/' ∧
      (normalizePath path).toList = '/' :: rest ++ tail ∧ tail ∈ [[], ['&'], ['?', '&']]) ∧
    (∃ rest, (normalizePath path).toList = '/' :: rest ∧ rest.head? ≠ some '/') ∧
    (∃ front query, (normalizePath path).toList = front ++ '?' :: query ++ ['&'] ∧ '?' ∉ front) ∧
    normalizePath (normalizePath path) = normalizePath path ∧ MatchedAlike (normalizePath path) path ∧
    ∀ n, MatchedAlike (.ofList (List.replicate n '/' ++ path.toList)) path := by
  obtain ⟨n, rest, hpath, hrest⟩ := exists_slashes path.toList
  have hnormal := toList_normalizePath hpath hrest
  have htail : closing rest ∈ [[], ['&'], ['?', '&']] := by
    unfold closing
    split_ifs <;> simp
  refine ⟨⟨n, rest, closing rest, hpath, hrest, hnormal, htail⟩, normalizePath_slash path, exists_query path,
    normalizePath_normalizePath path, ?_, fun k ↦ ?_⟩
  · exact matchedAlike_of_normalizePath (normalizePath_normalizePath path)
  · exact matchedAlike_of_normalizePath (normalizePath_slashes k path)

end PathBinding
