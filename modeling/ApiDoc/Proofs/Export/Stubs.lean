import ApiDoc.Proofs.Export.Exchange

/-! # Stubs export as what they stand for

Where the definitions of an interface have all names, a document does not tell a named schema from its
stub: both are references, and what they refer to is rendered from the definitions. So stubs may take
the place of any named nodes apart from the roots of the definitions (`document_stubbed`): an export
takes schemas and their stubs for each other (`stubbed_exchange`).
-/

namespace ApiDoc.Export

open Json Schema

variable {dialect : Dialect} {api api' : Api} {first second : Schema}

/-- A stub has the text of the schema it stands for. -/
theorem siteText_stubbed (stubbed : first.Stubbed second) : SameText dialect first second := by
  induction stubbed with
  | @stub schema named =>
    obtain ⟨name, here⟩ := Option.isSome_iff_exists.mp named
    have there : schema.stub.canonicalName = some name := here
    unfold SameText siteText plainUse
    rw [here, there]
    rfl
  | @inside first second below _ related ih =>
    have content : plainContent dialect first = plainContent dialect second := plainContent_eq (related.imp ih)
    unfold SameText siteText plainUse decorate
    rw [content, related.frame]

theorem plainBody_stubbed (related : first.RelatedParts Stubbed second) :
    plainBody dialect first = plainBody dialect second := by
  have content : plainContent dialect first = plainContent dialect second :=
    plainContent_eq (related.imp fun _ _ => siteText_stubbed)
  unfold plainBody decorate
  rw [content, related.frame]

/-- An export takes a schema for its stub. -/
theorem stubbed_exchange (dialect : Dialect) : Exchange dialect Stubbed (RelatedParts Stubbed) where
  sameText _ _ := siteText_stubbed
  sameName _ _ := Stubbed.canonicalName_eq
  unnamed _ _ := Stubbed.parts_of_unnamed
  sameBody _ _ := plainBody_stubbed
  inside _ _ := parts_related

/-- If every canonical name of an interface leads to a definition, stubs in the place of named schemas
change nothing of what it exports, neither a document nor an error. -/
theorem document_stubbed (known : api.Known) (stubbed : api.Stubbed api') (dialect : Dialect) :
    document dialect api' = document dialect api :=
  (stubbed_exchange dialect).document_eq known ⟨stubbed.frame, stubbed.paths, stubbed.definitions⟩

def cartItem : Schema := (Schema.namedObject "shop::Item").addProperty "title" .string true

def cart (item : Schema) : Schema := (Schema.namedObject "shop::Cart").addProperty "item" item false

/-- A shop that answers with a cart, perhaps none, with named schemas in some form. -/
def shopApi (form : Schema → Schema) : Api where
  title := "Shop"
  version := "1"
  paths := [{
    template := "/cart"
    operations := [(.get, {
      method := .get
      responses := [("200", {
        code := "200"
        description := "OK"
        schema := some (form { cart cartItem with nullable := true, extensions := [("x-note", bool true)] }) })] })] }]
  definitions := [("shop::Cart", cart (form cartItem)), ("shop::Item", cartItem)]

private theorem shopApi_known : (shopApi id).Known := by
  let known (name : String) : Prop := name ∈ Table.keys (shopApi id).definitions
  have ofItem : (Schema.namedObject "shop::Item").NamesIn known := Schema.namesIn_named _ (by decide)
  have ofCart : (Schema.namedObject "shop::Cart").NamesIn known := Schema.namesIn_named _ (by decide)
  have item : cartItem.NamesIn known := Schema.All.addProperty ofItem Schema.namesIn_string ofItem.root
  have full : (cart cartItem).NamesIn known := Schema.All.addProperty ofCart item ofCart.root
  refine ⟨fun site used => ?_, fun entry listed => ?_⟩
  · obtain rfl := List.mem_singleton.mp used
    exact Schema.Below.all full.below full.root
  · rcases List.mem_cons.mp listed with rfl | listed
    · exact full
    · obtain rfl := List.mem_singleton.mp listed
      exact item

theorem document_stubbed_shop : (shopApi id).Known ∧ (shopApi id).Stubbed (shopApi Schema.stub) ∧
    document .v20 (shopApi Schema.stub) = document .v20 (shopApi id) := by
  have related : (cart cartItem).RelatedParts Stubbed (cart cartItem.stub) := by
    refine ⟨rfl, .cons ⟨rfl, .stub rfl⟩ .nil, .none, .nil⟩
  have stubbed : (shopApi id).Stubbed (shopApi Schema.stub) := by
    refine ⟨rfl, .cons ⟨rfl, .cons ⟨rfl, rfl, .nil, .none, ?_⟩ .nil⟩ .nil, ?_⟩
    · exact .cons ⟨rfl, rfl, .some (.stub rfl), .nil⟩ .nil
    · exact .cons ⟨rfl, related⟩ (.cons ⟨rfl, cartItem.relatedParts_self fun part _ => .refl part⟩ .nil)
  exact ⟨shopApi_known, stubbed, document_stubbed shopApi_known stubbed .v20⟩

end ApiDoc.Export
