import BuildOrder.Main
import BuildOrder.Proofs.Cli.Args
import BuildOrder.Proofs.Dialect
import BuildOrder.Proofs.Discovery.Sources
import BuildOrder.Proofs.Graph.Diagnosis
import BuildOrder.Proofs.Graph.Layers
import BuildOrder.Proofs.Graph.Loop
import BuildOrder.Proofs.Graph.Report
import BuildOrder.Proofs.Graph.Representation
import BuildOrder.Proofs.Graph.Views
import BuildOrder.Proofs.Ignore.Walk
import BuildOrder.Proofs.Linker.Closed
import BuildOrder.Proofs.Linker.OwnSymbols
import BuildOrder.Proofs.Order
import BuildOrder.Proofs.Order.AsciiCase
import BuildOrder.Proofs.Order.Document
import BuildOrder.Proofs.Order.Includes
import BuildOrder.Proofs.Order.Inert
import BuildOrder.Proofs.Order.LineOrder
import BuildOrder.Proofs.Order.Mixed
import BuildOrder.Proofs.Order.Plan
import BuildOrder.Proofs.Order.UniqueProviders
import BuildOrder.Proofs.Order.Warnings
import BuildOrder.Proofs.Path
import BuildOrder.Proofs.Symbols.AsciiCase
import BuildOrder.Proofs.Symbols.Bytes
import BuildOrder.Proofs.Symbols.Headers
import BuildOrder.Proofs.Symbols.Includes
import BuildOrder.Proofs.Symbols.Modules
