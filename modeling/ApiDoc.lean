import ApiDoc.Main
import ApiDoc.Proofs.Run
import ApiDoc.Proofs.Schema.Names
import ApiDoc.Proofs.Export.Content
import ApiDoc.Proofs.Export.Trail
import ApiDoc.Proofs.Export.Tracing
import ApiDoc.Proofs.Export.Sites
import ApiDoc.Proofs.Export.References
import ApiDoc.Proofs.Type.Introspects
import ApiDoc.Proofs.Type.Levels
import ApiDoc.Proofs.Type.Settled
import ApiDoc.Proofs.Build.Parameters
import ApiDoc.Proofs.Type.Sessions
import ApiDoc.Proofs.Build.Interface
import ApiDoc.Proofs.Build.Names
import ApiDoc.Proofs.Export.Success
import ApiDoc.Proofs.Type.Leads
import ApiDoc.Proofs.Type.Merging
import ApiDoc.Proofs.Build.Laws
import ApiDoc.Proofs.Tables
import ApiDoc.Proofs.Build.Operations
import ApiDoc.Proofs.Build.Reachable
import ApiDoc.Proofs.Schema.WellFormed
import ApiDoc.Proofs.Type.Tokens
import ApiDoc.Proofs.Type.Brackets
import ApiDoc.Proofs.Type.TokenForms
import ApiDoc.Proofs.Type.Rereading
import ApiDoc.Proofs.Type.WellFormed
import ApiDoc.Proofs.Build.WellFormed
import ApiDoc.Proofs.Build.Placing
import ApiDoc.Proofs.Type.Faithful
import ApiDoc.Proofs.Build.Clear
import ApiDoc.Proofs.Build.Faithful
import ApiDoc.Proofs.Schema.Outline
import ApiDoc.Proofs.Type.Outlines
import ApiDoc.Proofs.Build.Alike
import ApiDoc.Proofs.Build.Places
import ApiDoc.Proofs.Build.Reordering
import ApiDoc.Proofs.Export.Alike
import ApiDoc.Proofs.Export.Reordering
import ApiDoc.Proofs.Generation
import ApiDoc.Proofs.Build.Ids
import ApiDoc.Proofs.Schema.Parts
import ApiDoc.Proofs.Export.SameText
import ApiDoc.Proofs.Schema.Stubs
import ApiDoc.Proofs.Export.Exchange
import ApiDoc.Proofs.Export.Stubs
import ApiDoc.Proofs.Export.Nullable
import ApiDoc.Proofs.Export.Versions
import ApiDoc.Proofs.Type.Marked
import ApiDoc.Proofs.Build.Regular
import ApiDoc.Proofs.Export.Counterparts
import ApiDoc.Proofs.Export.Outcome
import ApiDoc.Proofs.Json.Related
import ApiDoc.Proofs.Build.Paths
import ApiDoc.Proofs.Build.Templates
import ApiDoc.Proofs.Type.Exposure
import ApiDoc.Proofs.Build.Adding
import ApiDoc.Proofs.Build.Nesting
import ApiDoc.Proofs.Build.Slots
import ApiDoc.Proofs.Build.Hiding
import ApiDoc.Proofs.Build.Flat
import ApiDoc.Proofs.Build.TwoPasses
import ApiDoc.Proofs.Build.Trees
import ApiDoc.Proofs.Build.Locations
import ApiDoc.Proofs.Build.Shape
import ApiDoc.Proofs.Build.Travels
import ApiDoc.Proofs.Export.Forms
import ApiDoc.Proofs.Export.Urlencoded
import ApiDoc.Proofs.Export.FormFields
import ApiDoc.Proofs.Build.Tags
import ApiDoc.Proofs.Build.Redeclared
import ApiDoc.Proofs.Build.Responses
import ApiDoc.Proofs.Type.Chains
import ApiDoc.Proofs.Build.Documentation
import ApiDoc.Proofs.Build.Groups
import ApiDoc.Proofs.Build.Suffixes
import ApiDoc.Proofs.Build.Segments
import ApiDoc.Proofs.Manifests
import ApiDoc.Proofs.Commands
import ApiDoc.Proofs.Type.Returning
