import ApiDoc.Proofs.Build.Interface
import ApiDoc.Proofs.Type.Reaching

/-! # The definitions of a built interface

A route uses the types of what it answers, of its headers and of those of its parameters that are
visible. The definitions of an interface are exactly the catalogued entities that are reached from
the types of visible routes (`buildApi_defines_reachable`).
-/

namespace ApiDoc

variable {catalog : Catalog} {route : RouteDescriptor} {token : TypeToken} {name : String}

namespace Route

/-- The parameter is nested in a root that another parameter hides. -/
def UnderHiddenRoot (params : Table String ParamSpec) (name : String) : Prop :=
  (∃ key ∈ params.keys, isNested key = true) ∧ (splitNested name).length ≠ 1 ∧
    ∃ root ∈ params, (splitNested root.1).length = 1 ∧ root.2.documentation.hidden = true ∧
      rootName root.1 = rootName name

end Route

/-- The route uses the type. -/
inductive RouteDescriptor.Uses (route : RouteDescriptor) (token : TypeToken) : Prop
  | entity : route.entity = some token → Uses route token
  | model (spec : ResponseSpec) : spec ∈ route.responses → spec.model = some token → Uses route token
  | responseHeader (spec : ResponseSpec) (entry : String × HeaderSpec) : spec ∈ route.responses →
      entry ∈ spec.headers → entry.2.type = some token → Uses route token
  | header (entry : String × HeaderSpec) : entry ∈ route.headers → entry.2.type = some token →
      Uses route token
  | parameter (entry : String × ParamSpec) : entry ∈ route.params →
      entry.2.documentation.hidden = false → ¬Route.UnderHiddenRoot route.params entry.1 →
      entry.2.type = some token → Uses route token

namespace Route

variable {params : Table String ParamSpec}

theorem mem_flatTokens {entry : String × ParamSpec} : token ∈ flatTokens entry ↔
    entry.2.documentation.hidden = false ∧ entry.2.type = some token := by
  unfold flatTokens
  split
  · next hides => simp [hides]
  · next shows => simp [Bool.eq_false_iff.mpr shows]

theorem mem_headerTokens {headers : Table String HeaderSpec} : token ∈ headerTokens headers ↔
    ∃ entry ∈ headers, entry.2.type = some token := by
  simp [headerTokens]

theorem mem_hiddenRoots {root : String} : root ∈ hiddenRoots params ↔
    ∃ entry ∈ params, (splitNested entry.1).length = 1 ∧ entry.2.documentation.hidden = true ∧
      rootName entry.1 = root := by
  unfold hiddenRoots
  rw [List.mem_flatMap]
  refine exists_congr fun entry => and_congr_right fun _ => ?_
  split
  · next hides => simp [hides, eq_comm]
  · next shows =>
    constructor
    · intro impossible
      cases impossible
    · rintro ⟨single, hidden, -⟩
      exact absurd ⟨single, hidden⟩ shows

/-- The parameters use the types of those that are visible and not under a hidden root. -/
theorem mem_paramTokens : token ∈ paramTokens params ↔
    ∃ entry ∈ params, entry.2.documentation.hidden = false ∧ ¬UnderHiddenRoot params entry.1 ∧
      entry.2.type = some token := by
  unfold paramTokens
  by_cases nested : params.keys.any isNested = true
  · have some : ∃ key ∈ params.keys, isNested key = true := List.any_eq_true.mp nested
    simp only [nested, if_true, List.mem_append, List.mem_flatMap]
    constructor
    · rintro (⟨entry, member, first⟩ | ⟨entry, member, second⟩)
      · unfold rootTokens at first
        split at first
        · next single =>
          obtain ⟨shows, typed⟩ := mem_flatTokens.mp first
          exact ⟨entry, member, shows, fun covered => covered.2.1 single, typed⟩
        · cases first
      · unfold innerTokens at second
        split at second
        · cases second
        · next apart =>
          obtain ⟨shows, typed⟩ := mem_flatTokens.mp second
          refine ⟨entry, member, shows, fun covered => apart (.inr ?_), typed⟩
          exact mem_hiddenRoots.mpr covered.2.2
    · rintro ⟨entry, member, shows, uncovered, typed⟩
      have inFlat : token ∈ flatTokens entry := mem_flatTokens.mpr ⟨shows, typed⟩
      by_cases single : (splitNested entry.1).length = 1
      · exact .inl ⟨entry, member, by rwa [rootTokens, if_pos single]⟩
      · refine .inr ⟨entry, member, ?_⟩
        have apart : ¬((splitNested entry.1).length = 1 ∨ rootName entry.1 ∈ hiddenRoots params) := by
          rintro (one | covered)
          · exact single one
          · exact uncovered ⟨some, single, mem_hiddenRoots.mp covered⟩
        rwa [innerTokens, if_neg apart]
  · have none : ∀ other, ¬UnderHiddenRoot params other :=
      fun other covered => nested (List.any_eq_true.mpr covered.1)
    simp only [nested, Bool.false_eq_true, if_false, List.mem_flatMap, mem_flatTokens]
    exact exists_congr fun entry => and_congr_right fun _ => by simp [none]

end Route

/-- The tokens of a route are those it uses. -/
theorem RouteDescriptor.mem_tokens : token ∈ route.tokens ↔ route.Uses token := by
  simp only [tokens, responseTokens, List.mem_append, List.mem_flatMap, Option.mem_toList,
    Route.mem_headerTokens, Route.mem_paramTokens]
  constructor
  · rintro ((⟨entry, member, typed⟩ | ⟨entry, member, shows, uncovered, typed⟩) | answer | inResponse)
    · exact .header entry member typed
    · exact .parameter entry member shows uncovered typed
    · exact .entity answer
    · obtain ⟨spec, member, ⟨entry, inside, typed⟩ | model⟩ := inResponse
      · exact .responseHeader spec entry member inside typed
      · exact .model spec member model
  · intro uses
    cases uses with
    | entity answer => exact .inr (.inl answer)
    | model spec member model => exact .inr (.inr ⟨spec, member, .inr model⟩)
    | responseHeader spec entry member inside typed =>
      exact .inr (.inr ⟨spec, member, .inl ⟨entry, inside, typed⟩⟩)
    | header entry member typed => exact .inl (.inl ⟨entry, member, typed⟩)
    | parameter entry member shows uncovered typed =>
      exact .inl (.inr ⟨entry, member, shows, uncovered, typed⟩)

/-- The entity is reached from a type that a visible route uses. -/
def ReachedFrom (catalog : Catalog) (routes : List RouteDescriptor) (name : String) : Prop :=
  ∃ route ∈ routes, route.hidden = false ∧ ∃ token, route.Uses token ∧
    ∃ first, token.Names first ∧ catalog.Reaches first name

theorem mem_keys_definitions_iff (config : Config) (catalog : Catalog)
    (routes : List RouteDescriptor) (name : String) :
    name ∈ Table.keys (buildApi config { catalog } routes).definitions ↔
      ReachedFrom catalog routes name := by
  rw [buildApi_definitions]
  refine (session_defines_iff catalog (routeCalls routes) name).trans ?_
  simp only [routeCalls, routeTokens, List.mem_map, List.mem_flatMap, mem_visibleRoutes]
  constructor
  · rintro ⟨_, ⟨token, ⟨route, ⟨listed, shows⟩, member⟩, rfl⟩, leads⟩
    exact ⟨route, listed, shows, token, RouteDescriptor.mem_tokens.mp member, leads_iff.mp leads⟩
  · rintro ⟨route, listed, shows, token, uses, reached⟩
    exact ⟨.resolve token, ⟨token, ⟨route, ⟨listed, shows⟩, RouteDescriptor.mem_tokens.mpr uses⟩, rfl⟩,
      leads_iff.mpr reached⟩

theorem nodup_keys_definitions (config : Config) (catalog : Catalog) (routes : List RouteDescriptor) :
    (Table.keys (buildApi config { catalog } routes).definitions).Nodup := by
  obtain ⟨history, derived⟩ := session_history catalog (routeCalls routes)
  rw [buildApi_definitions]
  exact (derived.settled settled_empty).1.distinct

/-- An interface defines exactly the catalogued entities that are reached from the types its visible
routes use, and each of them once. -/
theorem buildApi_defines_reachable (config : Config) (catalog : Catalog)
    (routes : List RouteDescriptor) :
    (Table.keys (buildApi config { catalog } routes).definitions).Nodup ∧
      ∀ name, name ∈ Table.keys (buildApi config { catalog } routes).definitions ↔
        ∃ route ∈ routes, route.hidden = false ∧ ∃ token, route.Uses token ∧
          ∃ first, token.Names first ∧ catalog.Reaches first name :=
  ⟨nodup_keys_definitions config catalog routes, mem_keys_definitions_iff config catalog routes⟩

end ApiDoc
