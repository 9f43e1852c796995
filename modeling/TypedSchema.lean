import TypedSchema.Decimal.Reader
import TypedSchema.Main
import TypedSchema.Proofs.CommandLine.Inputs
import TypedSchema.Proofs.Declaration.Equivalence
import TypedSchema.Proofs.Declaration.Json
import TypedSchema.Proofs.Declaration.RequiredNames
import TypedSchema.Proofs.Document.Loaded
import TypedSchema.Proofs.Document.Warnings
import TypedSchema.Proofs.FaultKinds
import TypedSchema.Proofs.Python.Session
import TypedSchema.Proofs.Python.WellFormed
import TypedSchema.Proofs.Schema.Annotations
import TypedSchema.Proofs.Schema.CommonShapes
import TypedSchema.Proofs.Schema.MergeByName
import TypedSchema.Proofs.Schema.MergeMeaning
import TypedSchema.Proofs.Schema.MergeOrder
import TypedSchema.Proofs.Schema.Resolvable
import TypedSchema.Proofs.Schema.ResolveMeaning
import TypedSchema.Proofs.Declaration.Order
import TypedSchema.Proofs.Declaration.Record
import TypedSchema.Proofs.Json.Pointer
import TypedSchema.Proofs.Schema.TypeList
import TypedSchema.Proofs.Node.Flaw
import TypedSchema.Proofs.Document.Places
import TypedSchema.Proofs.Document.Reported
import TypedSchema.Proofs.Declaration.Naming
import TypedSchema.Proofs.Document.Root
