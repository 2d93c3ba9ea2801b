import PathBinding.Proofs.Resolution
import PathBinding.Proofs.Session
import PathBinding.Proofs.View

/-!
The producers of a session. A call that registers a producer puts it in place of the last one for the parameter, and no
other operation changes a producer (`producers_next`). So behind a run each parameter has the producer of the last call
that went through (`lookup_producersOf_after`), the mapping of its type is there and the parameter is dynamic in it
(`isDynamic_of_registered`). A match misses a producer exactly if some gap of the mapping belongs to a parameter for which
no call has gone through (`registrations_tell`).
-/

set_option autoImplicit false
set_option relaxedAutoImplicit false

namespace PathBinding

namespace Session

/-- The parameter of a type for which an operation registers a producer, with the producer, if the call goes through. -/
def registration? (session : Session) : Operation → Option ((TypeKey × String) × Producer)
  | .act index (.setDynamic name producer) => do
    let (inst, spec, _) ← session.view? index
    let step := session.registry.setDynamicRegex inst.type spec.declaration name producer
    if step.result.isOk then some ((inst.type, name), producer) else none
  | _ => none

/-- The registrations of a run that go through, the last one first. -/
def registrations (session : Session) : List Operation → List ((TypeKey × String) × Producer)
  | [] => []
  | operation :: rest => registrations (session.next operation) rest ++ (session.registration? operation).toList

variable {session start : Session} {operation : Operation} {key : TypeKey} {name : String} {producer : Producer}

theorem registration?_of_ne {action : Action} (h : ∀ name producer, action ≠ .setDynamic name producer)
    (session : Session) (index : Nat) : session.registration? (.act index action) = none := by
  cases action with
  | setDynamic name producer => exact absurd rfl (h name producer)
  | _ => rfl

theorem producers_next (session : Session) (operation : Operation) : (session.next operation).registry.producers =
    match session.registration? operation with
    | some (parameter, producer) => (parameter, producer) :: session.registry.producers.filter (·.1 != parameter)
    | none => session.registry.producers := by
  cases operation with
  | redeclare type spec => rfl
  | act index action =>
    rcases session.next_cases index action with ⟨hview, hnext⟩ | ⟨inst, spec, view, hview, hnext⟩
    · have hnone : session.registration? (.act index action) = none := by
        cases action with
        | setDynamic name producer =>
          rw [registration?, hview]
          rfl
        | _ => rfl
      rw [hnext, hnone]
    · have hmapping := session.registry.producers_mapping inst.type spec.declaration
      rw [hnext, session_act, withView]
      rcases session.registry_actWith_cases View.access inst.type spec.declaration view action with
        ⟨name, producer, rfl, hregistry⟩ | ⟨hother, hregistry⟩
      · rw [hregistry, registration?, hview]
        dsimp only [Option.bind_eq_bind, Option.bind_some]
        rcases session.registry.setDynamicRegex_cases inst.type spec.declaration name producer with
          ⟨_, _, -, -, -, hresult, hregistry⟩ | ⟨e, hresult, hregistry, -⟩
        · rw [hresult, hregistry]
          rfl
        · rw [hresult, hregistry]
          exact hmapping
      · rw [hregistry, registration?_of_ne hother]
        cases action.builds with
        | true => exact hmapping
        | false => rfl

/-- Behind a run a parameter has the producer of the last registration, or the one that it had. -/
theorem lookup_producers_after (session : Session) (operations : List Operation) (parameter : TypeKey × String) :
    (session.after operations).registry.producers.lookup parameter =
      ((session.registrations operations).lookup parameter).or (session.registry.producers.lookup parameter) := by
  induction operations generalizing session with
  | nil => rfl
  | cons operation rest ih =>
    rw [after_cons, ih, registrations, List.lookup_append, Option.or_assoc, producers_next]
    cases session.registration? operation with
    | none => rfl
    | some registered =>
      obtain ⟨own, producer⟩ := registered
      dsimp only [Option.toList_some]
      rw [List.lookup_cons, List.lookup_cons]
      by_cases hown : parameter = own
      · rw [hown, beq_self_eq_true]
        rfl
      · rw [beq_eq_false_iff_ne.mpr hown, lookup_filter_of_ne _ hown]
        rfl

theorem lookup_producersOf_after (hfresh : start.IsFresh) (operations : List Operation) (key : TypeKey) (name : String) :
    ((start.after operations).registry.producersOf key).lookup name =
      (start.registrations operations).lookup (key, name) := by
  rw [Registry.producersOf_eq, Registry.lookup_producersIn, lookup_producers_after, hfresh.2]
  exact Option.or_none

/-- A registration goes through only for a dynamic parameter of the mapping, which is there from then on. -/
theorem mapping?_of_registration? (h : session.registration? operation = some ((key, name), producer)) :
    ∃ mapping descriptor, (session.next operation).registry.mapping? key = some mapping ∧
      mapping.find? name = some descriptor ∧ descriptor.dynamic = true := by
  cases operation with
  | redeclare type spec => cases h
  | act index action =>
    cases action with
    | setDynamic own registered =>
      obtain ⟨⟨inst, spec, view⟩, hview, h⟩ := Option.bind_eq_some_iff.mp h
      dsimp only at h
      split at h
      · next hok =>
        cases h
        rw [next_act hview]
        rcases session.registry.setDynamicRegex_cases inst.type spec.declaration name producer with
          ⟨mapping, descriptor, hmapping, hfind, hdynamic, -, hregistry⟩ | ⟨e, hresult, -⟩
        · refine ⟨mapping, descriptor, ?_, hfind, hdynamic⟩
          dsimp only [act, actWith, withView, ofRegistry]
          rw [hregistry]
          exact Registry.mapping?_of_result hmapping
        · rw [hresult] at hok
          cases hok
      · cases h
    | _ => cases h

theorem isDynamic_of_registered (session : Session) {operations : List Operation}
    (h : ((key, name), producer) ∈ session.registrations operations) :
    ∃ mapping descriptor, (session.after operations).registry.mapping? key = some mapping ∧
      mapping.find? name = some descriptor ∧ descriptor.dynamic = true := by
  induction operations generalizing session with
  | nil => cases h
  | cons operation rest ih =>
    rcases List.mem_append.mp h with h | h
    · exact ih _ h
    · obtain ⟨mapping, descriptor, hmapping, hdynamic⟩ := mapping?_of_registration? (Option.mem_toList.mp h)
      exact ⟨mapping, descriptor, mapping?_after_of_some hmapping rest, hdynamic⟩

/-- Assumes: a session begins with a new registry. Behind any run the producers of a type are those of the last
registrations that went through, each for a dynamic parameter of the mapping that the type has then, and a registration
that fails changes none. A match that has a mapping misses a producer exactly if some gap that the patterns leave belongs
to a parameter without a registration, and it names the first such gap; parameters without a gap need no producer. -/
theorem registrations_tell (hfresh : start.IsFresh) (operations : List Operation) (key : TypeKey) :
    let registry := (start.after operations).registry
    let registered? (name : String) := (start.registrations operations).lookup (key, name)
    (∀ name, (registry.producersOf key).lookup name = registered? name) ∧
    (∀ name producer, registered? name = some producer → ∃ mapping descriptor,
      registry.mapping? key = some mapping ∧ mapping.find? name = some descriptor ∧ descriptor.dynamic = true) ∧
    (∀ declaration name producer e, (registry.setDynamicRegex key declaration name producer).result = .error e →
      (registry.setDynamicRegex key declaration name producer).registry.producers = registry.producers) ∧
    ∀ declaration mapping, (registry.mapping key declaration).result = .ok mapping →
      ∃ source, Mapping.build source start.registry.settings = .ok mapping ∧ mapping.gaps = source.gaps ∧
        ∀ view path parameter owner,
          (registry.matchPath key declaration view path).2.result = .error (.noDynamicRegex parameter owner) ↔
            owner = mapping.owner ∧ source.gaps.find? (fun name ↦ (registered? name).isNone) = some parameter := by
  intro registry registered?
  have hlookup : ∀ name, (registry.producersOf key).lookup name = registered? name :=
    lookup_producersOf_after hfresh operations key
  refine ⟨hlookup, fun name producer h ↦ isDynamic_of_registered start (mem_of_lookup h), ?_, ?_⟩
  · intro declaration name producer e herror
    rcases registry.setDynamicRegex_cases key declaration name producer with ⟨_, _, -, -, -, hok, -⟩ | ⟨_, -, hsame, -⟩
    · cases hok.symm.trans herror
    · rw [hsame, Registry.producers_mapping]
  · intro declaration mapping hmapping
    obtain ⟨source, hbuild⟩ := exists_build hfresh operations hmapping
    have hgaps := Mapping.gaps_of_build hbuild
    refine ⟨source, hbuild, hgaps, fun view path parameter owner ↦ ?_⟩
    have hmissing : mapping.missing? (registry.producersOf key) =
        source.gaps.find? fun name ↦ (registered? name).isNone := by
      rw [Mapping.missing?, hgaps]
      simp only [hlookup]
    rw [registry.matchPath_of_mapping hmapping, ← hmissing]
    exact Mapping.bind_noDynamicRegex_iff hbuild path parameter owner

/-- Notes on a shelf, where shelves, labels and colours are left to the view, but no pattern has a colour. -/
def notes : Declaration where
  owner := "Notes"
  parameters := [⟨"shelf", .string, none, true⟩, ⟨"label", .string, none, true⟩, ⟨"colour", .string, none, true⟩]
  patterns := [⟨":shelf", ["label=:label"]⟩]

/-- Shelves have a producer and titles cannot have one, so labels are missed, while nobody asks for colours. -/
theorem registrations_notes :
    let type : ViewType := ⟨.anyExcept [], true⟩
    let start : Session := ⟨{ settings := {} }, [(.declared 0, ⟨notes, type⟩)], [⟨.declared 0, [], none⟩]⟩
    let operations : List Operation := [.act 0 (.setDynamic "shelf" (Producer.constant "[a-z]+")),
      .act 0 (.setDynamic "title" Producer.silent)]
    start.IsFresh ∧ (start.registrations operations).map Prod.fst = [(.declared 0, "shelf")] ∧
      notes.gaps = ["shelf", "label"] ∧
      ((start.after operations).registry.matchPath (.declared 0) notes ⟨type, [], none⟩ "a").2.result =
        .error (.noDynamicRegex "label" "Notes") := by
  intro type start operations
  have hfresh : start.IsFresh := ⟨rfl, rfl⟩
  have hregistered : (start.registrations operations).map Prod.fst = [(.declared 0, "shelf")] := by decide +kernel
  have hgaps : notes.gaps = ["shelf", "label"] := by decide +kernel
  have hmapping : ((start.after operations).registry.mapping (.declared 0) notes).result.toOption.any fun mapping ↦
      decide (mapping.owner = "Notes") && decide (mapping.gaps = notes.gaps) := by
    decide +kernel
  have hmissing : notes.gaps.find? (fun name ↦ ((start.registrations operations).lookup (.declared 0, name)).isNone) =
      some "label" := by
    decide +kernel
  obtain ⟨mapping, hfound, hparts⟩ := (Option.any_eq_true _ _).mp hmapping
  obtain ⟨howner, hown⟩ := Bool.and_eq_true_iff.mp hparts
  obtain ⟨-, -, -, hmatch⟩ := registrations_tell hfresh operations (.declared 0)
  obtain ⟨source, -, hsource, hiff⟩ := hmatch notes mapping (eq_ok_of_toOption hfound)
  refine ⟨hfresh, hregistered, hgaps, (hiff ⟨type, [], none⟩ "a" "label" "Notes").mpr ⟨(of_decide_eq_true howner).symm, ?_⟩⟩
  rw [← hsource, of_decide_eq_true hown]
  exact hmissing

end Session

end PathBinding
