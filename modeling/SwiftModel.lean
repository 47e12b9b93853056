import SwiftModel.Main
import SwiftModel.Inference.Walk
import SwiftModel.Proofs.Identifier.PlainNames
import SwiftModel.Proofs.Identifier.OwnType
import SwiftModel.Proofs.Number.Value
import SwiftModel.Proofs.Json.DistinctKeys
import SwiftModel.Proofs.Json.Pointer
import SwiftModel.Proofs.Emission.Draft
import SwiftModel.Proofs.Emission.Clash
import SwiftModel.Proofs.Emission.ReadDeclaration
import SwiftModel.Proofs.Emission.WrittenType
import SwiftModel.Proofs.Emission.Arranged
import SwiftModel.Proofs.Emission.ReadModel
import SwiftModel.Proofs.Emission.Scope
import SwiftModel.Proofs.Emission.References
import SwiftModel.Proofs.Emission.Members
import SwiftModel.Proofs.Emission.LegalNames
import SwiftModel.Proofs.Emission.WrittenNames
import SwiftModel.Proofs.Emission.Writing
import SwiftModel.Proofs.Emission.Accumulated
import SwiftModel.Proofs.Inference.Walk
import SwiftModel.Proofs.Inference.Similar
import SwiftModel.Proofs.Inference.Unsigned
import SwiftModel.Proofs.Inference.Described
import SwiftModel.Proofs.Inference.FaultPlace
import SwiftModel.Proofs.Inference.Acceptance
import SwiftModel.Proofs.Inference.SampleFits
import SwiftModel.Proofs.Inference.ValidInstance
import SwiftModel.Proofs.Files.Path
import SwiftModel.Proofs.Files.Program
import SwiftModel.Proofs.Files.Reading
import SwiftModel.Proofs.Files.Interference
import SwiftModel.Proofs.Files.Moment
import SwiftModel.Proofs.Files.Effects
import SwiftModel.Proofs.Batch.Collisions
import SwiftModel.Proofs.Batch.Survival
import SwiftModel.Proofs.Batch.Independence
import SwiftModel.Proofs.Emission.Order
import SwiftModel.Proofs.Json.Reordered
import SwiftModel.Proofs.Inference.Order
import SwiftModel.Proofs.Batch.Order
import SwiftModel.Proofs.Batch.Written
import SwiftModel.Proofs.CommandLine.Resolution
import SwiftModel.Proofs.CommandLine.Run
import SwiftModel.Proofs.Emission.Blocks
import SwiftModel.Proofs.Emission.Layout
import SwiftModel.Proofs.CommandLine.Overrides
import SwiftModel.Proofs.Emission.KeyTables
import SwiftModel.Proofs.Json.Closing
import SwiftModel.Proofs.Config.Reader
import SwiftModel.Proofs.Config.Document
import SwiftModel.Proofs.Identifier.LeastSuffix
import SwiftModel.Proofs.Unicode.Uppercase
import SwiftModel.Proofs.Identifier.NormalForm
import SwiftModel.Proofs.Inference.Invariants
import SwiftModel.Proofs.Json.Grammar
import SwiftModel.Proofs.Json.Lexing
import SwiftModel.Proofs.Json.Growth
import SwiftModel.Proofs.Config.Section
import SwiftModel.Proofs.Config.Patch
import SwiftModel.Proofs.Config.Written
