import QueryValidator.Document.Shape
import QueryValidator.Module.Schema
import QueryValidator.Run.Generation
import QueryValidator.Main
import QueryValidator.Host.FileTree
import QueryValidator.Proofs.Name.RelationFilter
import QueryValidator.Proofs.Query.Alternatives
import QueryValidator.Proofs.Run.Links
import QueryValidator.Proofs.Zod.Unambiguity
import QueryValidator.Proofs.Query.Modifiers
import QueryValidator.Proofs.Name.Agreement
import QueryValidator.Proofs.Run.Violations
import QueryValidator.Proofs.Module.Declarations
import QueryValidator.Proofs.Query.Declarations
import QueryValidator.Proofs.Run.Resolved
import QueryValidator.Proofs.Name.RawAlias
import QueryValidator.Proofs.Run.Paths
import QueryValidator.Proofs.Name.Export
import QueryValidator.Proofs.Run.Exports
import QueryValidator.Proofs.Query.Aggregates
import QueryValidator.Proofs.Run.Aggregates
import QueryValidator.Proofs.Run.Independence
import QueryValidator.Proofs.Run.Reordering
import QueryValidator.Proofs.Run.Writable
import QueryValidator.Proofs.Service.Session
import QueryValidator.Proofs.Run.EntryPoints
import QueryValidator.Proofs.Run.Operations
import QueryValidator.Proofs.Run.ClientImport
import QueryValidator.Proofs.Run.RawOperations
import QueryValidator.Proofs.Query.Assembly
import QueryValidator.Proofs.Run.EnumValues
import QueryValidator.Proofs.Run.ClientLiteral
import QueryValidator.Proofs.Zod.Layout
import QueryValidator.Proofs.Query.Required
import QueryValidator.Proofs.Service.Settings
import QueryValidator.Proofs.Run.Index
import QueryValidator.Proofs.Query.FilterRule
import QueryValidator.Proofs.Module.ImportHistory
import QueryValidator.Proofs.Json.Written
import QueryValidator.Proofs.Json.Spelling
import QueryValidator.Proofs.Json.Record
import QueryValidator.Proofs.Json.Agreement
import QueryValidator.Proofs.Json.Additions
import QueryValidator.Proofs.Document.Reading
