import Mathlib.Data.Finset.Card
import Mathlib.Data.Nat.Find
import ApiDoc.Proofs.Type.Answering

/-! # Redirections in a row

What resolving a token goes on to is read off the resolver that answers it: to the parts of an array
or of a choice, to the token of a redirection, or to nothing (`onward`). A custom resolver always
redirects to the same token, so where the redirections end at all, no resolver is met twice below
another one, and as many redirections in a row as there are resolvers are enough
(`RedirectsWithin.length_chain`).
-/

namespace ApiDoc

/-- The token that a resolver redirects to. -/
def Resolver.target? : Resolver → Option TypeToken
  | .custom resolver =>
    match resolver.reply with
    | .schema _ => none
    | .redirect target => some target
  | _ => none

/-- What resolving a token goes on to. -/
inductive Onward where
  /-- Tokens that stand in the token itself. -/
  | parts (tokens : List TypeToken)
  /-- The token of a redirection. -/
  | redirect (token : TypeToken)

/-- What the resolver that answers a token goes on to. -/
def onward (answering : TypeToken → Option Resolver) (token : TypeToken) : Onward :=
  match answering token, token with
  | some (.custom resolver), _ =>
    match resolver.reply with
    | .schema _ => .parts []
    | .redirect target => .redirect target
  | some .array, .arrayOf item => .parts [item]
  | some .oneOf, .oneOf variants => .parts variants
  | _, _ => .parts []

/-- Resolving a token follows at most `limit` redirections in a row. -/
inductive RedirectsWithin (answering : TypeToken → Option Resolver) : Nat → TypeToken → Prop
  | parts {limit : Nat} {token : TypeToken} {tokens : List TypeToken} :
      onward answering token = .parts tokens →
      (∀ part ∈ tokens, RedirectsWithin answering limit part) →
      RedirectsWithin answering limit token
  | redirect {limit : Nat} {token target : TypeToken} :
      onward answering token = .redirect target → RedirectsWithin answering limit target →
      RedirectsWithin answering (limit + 1) token

variable {answering : TypeToken → Option Resolver} {limit more : Nat} {token target : TypeToken}

theorem onward_array {item : TypeToken} (answered : answering (.arrayOf item) = some .array) :
    onward answering (.arrayOf item) = .parts [item] := by
  simp only [onward, answered]

theorem onward_oneOf {tokens : List TypeToken} (answered : answering (.oneOf tokens) = some .oneOf) :
    onward answering (.oneOf tokens) = .parts tokens := by
  simp only [onward, answered]

theorem onward_custom {resolver : CustomResolver}
    (answered : answering token = some (.custom resolver)) (reply : resolver.reply = .redirect target) :
    onward answering token = .redirect target := by
  simp only [onward, answered, reply]

/-- A redirection is the reply of the custom resolver that answers. -/
theorem onward_redirect (onto : onward answering token = .redirect target) :
    ∃ resolver, answering token = some (.custom resolver) ∧ resolver.reply = .redirect target := by
  unfold onward at onto
  split at onto
  · next resolver answered =>
    split at onto
    · cases onto
    · next other reply =>
      obtain rfl : other = target := by injection onto
      exact ⟨resolver, answered, reply⟩
  all_goals cases onto

namespace RedirectsWithin

/-- A token that leads nowhere follows no redirection. -/
theorem done (onto : onward answering token = .parts []) : RedirectsWithin answering 0 token :=
  .parts onto (List.forall_mem_nil _)

theorem mono (within : RedirectsWithin answering limit token) (larger : limit ≤ more) :
    RedirectsWithin answering more token := by
  induction within generalizing more with
  | parts onto _ ih => exact .parts onto fun part member => ih part member larger
  | @redirect limit token target onto _ ih =>
    obtain ⟨rest, rfl⟩ : ∃ rest, more = rest + 1 := ⟨more - 1, by omega⟩
    exact .redirect onto (ih (by omega))

/-- The parts of a token follow no more redirections. -/
theorem of_parts {tokens : List TypeToken} (within : RedirectsWithin answering limit token)
    (onto : onward answering token = .parts tokens) :
    ∀ part ∈ tokens, RedirectsWithin answering limit part := by
  cases within with
  | parts other below =>
    obtain rfl : _ = tokens := by injection other.symm.trans onto
    exact below
  | redirect other _ => cases other.symm.trans onto

/-- Behind a redirection there is one less to follow. -/
theorem of_redirect (within : RedirectsWithin answering limit token)
    (onto : onward answering token = .redirect target) :
    ∃ rest, limit = rest + 1 ∧ RedirectsWithin answering rest target := by
  cases within with
  | parts other _ => cases other.symm.trans onto
  | redirect other below =>
    obtain rfl : _ = target := by injection other.symm.trans onto
    exact ⟨_, rfl, below⟩

open Classical in
/-- The targets that follow less than `limit` redirections. -/
noncomputable def settled (answering : TypeToken → Option Resolver) (targets : Finset TypeToken)
    (limit : Nat) : Finset TypeToken :=
  targets.filter fun target => ∃ less < limit, RedirectsWithin answering less target

/-- A target that follows exactly `limit` redirections is new among the settled ones. -/
theorem card_settled_lt {targets : Finset TypeToken} (listed : target ∈ targets)
    (within : RedirectsWithin answering limit target)
    (least : ∀ less < limit, ¬RedirectsWithin answering less target) (larger : limit < more) :
    (settled answering targets limit).card < (settled answering targets more).card := by
  classical
  refine Finset.card_lt_card ⟨fun other member => ?_, fun subset => ?_⟩
  · simp only [settled, Finset.mem_filter] at member ⊢
    obtain ⟨there, less, below, kept⟩ := member
    exact ⟨there, less, by omega, kept⟩
  · have member : target ∈ settled answering targets more := by
      simp only [settled, Finset.mem_filter]
      exact ⟨listed, limit, larger, within⟩
    have old := subset member
    simp only [settled, Finset.mem_filter] at old
    obtain ⟨-, less, below, kept⟩ := old
    exact least less below kept

/-- Redirections in a row are counted by the targets that are settled before them. -/
theorem card_settled {targets : Finset TypeToken}
    (listed : ∀ {token target}, onward answering token = .redirect target → target ∈ targets)
    (within : RedirectsWithin answering limit token) :
    RedirectsWithin answering (settled answering targets limit).card token := by
  classical
  induction limit using Nat.strong_induction_on generalizing token with
  | _ limit earlier =>
    induction within with
    | parts onto _ ih => exact .parts onto fun part member => ih part member earlier
    | @redirect limit token target onto below _ =>
      -- The target is counted where it is settled for the first time.
      have exists_within : ∃ least, RedirectsWithin answering least target := ⟨limit, below⟩
      have first := Nat.find_spec exists_within
      have least := Nat.find_min' exists_within below
      have counted := earlier (Nat.find exists_within) (by omega) first
      have more := card_settled_lt (listed onto) first (fun less smaller => Nat.find_min _ smaller)
        (Nat.lt_succ_of_le least)
      exact (RedirectsWithin.redirect onto counted).mono more

/-- In a chain, no more redirections are followed in a row than there are resolvers. -/
theorem length_chain {chain : Chain} {catalog : Catalog}
    (within : RedirectsWithin (chain.answering? catalog) limit token) :
    RedirectsWithin (chain.answering? catalog) chain.length token := by
  classical
  have listed {token target : TypeToken}
      (onto : onward (chain.answering? catalog) token = .redirect target) :
      target ∈ (chain.filterMap Resolver.target?).toFinset := by
    obtain ⟨resolver, answered, reply⟩ := onward_redirect onto
    rw [List.mem_toFinset, List.mem_filterMap]
    exact ⟨.custom resolver, List.mem_of_find?_eq_some answered, by simp only [Resolver.target?, reply]⟩
  refine (within.card_settled listed).mono ((Finset.card_filter_le _ _).trans ?_)
  exact (List.toFinset_card_le _).trans (List.length_filterMap_le _ _)

mutual

/-- Where nothing is redirected, no redirection is followed. -/
theorem of_straight (straight : ∀ token target, onward answering token ≠ .redirect target) :
    ∀ token, RedirectsWithin answering 0 token
  | token => by
    cases onto : onward answering token with
    | redirect target => exact absurd onto (straight token target)
    | parts tokens =>
      refine .parts onto ?_
      unfold onward at onto
      split at onto
      · split at onto <;> cases onto
        exact List.forall_mem_nil _
      · cases onto
        exact List.forall_mem_singleton.mpr (of_straight straight _)
      · cases onto
        exact all_of_straight straight _
      · cases onto
        exact List.forall_mem_nil _

/-- Nor by any of several tokens. -/
theorem all_of_straight (straight : ∀ token target, onward answering token ≠ .redirect target) :
    ∀ tokens : List TypeToken, ∀ token ∈ tokens, RedirectsWithin answering 0 token
  | [] => List.forall_mem_nil _
  | first :: rest =>
    List.forall_mem_cons.mpr ⟨of_straight straight first, all_of_straight straight rest⟩

end

/-- By a chain without a redirecting resolver, no redirection is followed. -/
theorem of_chain {chain : Chain} {catalog : Catalog}
    (fixed : ∀ resolver ∈ chain, resolver.target? = none) (token : TypeToken) :
    RedirectsWithin (chain.answering? catalog) 0 token := by
  refine of_straight (fun token target onto => ?_) token
  obtain ⟨resolver, answered, reply⟩ := onward_redirect onto
  have none := fixed (.custom resolver) (List.mem_of_find?_eq_some answered)
  simp only [Resolver.target?, reply] at none
  cases none

end RedirectsWithin

end ApiDoc
