import ObjectBridge.NameMap
import ObjectBridge.Handle
import ObjectBridge.Text.Shortest
import ObjectBridge.Text.Quoted
import ObjectBridge.Variant.Convert
import ObjectBridge.ClassDecl
import ObjectBridge.Database.Error
import ObjectBridge.Database
import ObjectBridge.Database.Document
import ObjectBridge.Database.Layout
import ObjectBridge.Coercion
import ObjectBridge.Lattice
import ObjectBridge.Options.Reader
import ObjectBridge.Engine
import ObjectBridge.Engine.Call
import ObjectBridge.BindError
import ObjectBridge.Bridge.Context
import ObjectBridge.Bridge.Singleton
import ObjectBridge.Bridge
import ObjectBridge.Engine.Step
import ObjectBridge.Session
import ObjectBridge.Session.Step
import ObjectBridge.CommandLine.Grammar
import ObjectBridge.Report
import ObjectBridge.Report.Inspection
import ObjectBridge.Report.Summary
import ObjectBridge.Command
import ObjectBridge.Main
import ObjectBridge.Proofs.Cache.Wrapping
import ObjectBridge.Proofs.Cache.Identity
import ObjectBridge.Proofs.Database.Fitting
import ObjectBridge.Proofs.Database.Acceptance
import ObjectBridge.Proofs.Lattice.Binding
import ObjectBridge.Proofs.Lattice.Synthesis
import ObjectBridge.Proofs.Lattice.Chain
import ObjectBridge.Proofs.Lattice.Resolution
import ObjectBridge.Proofs.Database.Ancestors
import ObjectBridge.Proofs.Engine.Lineage
import ObjectBridge.Proofs.Lattice.Inheritance
import ObjectBridge.Proofs.Database.Permutation
import ObjectBridge.Proofs.Lattice.Isomorphism
import ObjectBridge.Proofs.Bridge.Start
import ObjectBridge.Proofs.Crossing.Accessors
import ObjectBridge.Proofs.Crossing.Origin
import ObjectBridge.Proofs.Lattice.Overrides
import ObjectBridge.Proofs.Lattice.Exposure
import ObjectBridge.Proofs.Engine.History
import ObjectBridge.Proofs.Crossing.Arguments
import ObjectBridge.Proofs.Bridge.Use
import ObjectBridge.Proofs.Bridge.Requests
import ObjectBridge.Proofs.Bridge.Effects
import ObjectBridge.Proofs.Bridge.Turns
import ObjectBridge.Proofs.Bridge.Founding
import ObjectBridge.Proofs.Session.Turns
import ObjectBridge.Proofs.Session.Release
import ObjectBridge.Proofs.Session.Transparency
import ObjectBridge.Proofs.Session.Strictness
import ObjectBridge.Proofs.Session.Instantiation
import ObjectBridge.Proofs.Cache.Visits
import ObjectBridge.Proofs.Session.Runs
import ObjectBridge.Proofs.Bridge.Naming
import ObjectBridge.Proofs.Database.Documents
import ObjectBridge.Proofs.Engine.Record
import ObjectBridge.Proofs.Engine.Store
import ObjectBridge.Proofs.Engine.Dispatch
import ObjectBridge.Proofs.Bridge.Properties
import ObjectBridge.Proofs.Database.Precedence
import ObjectBridge.Proofs.Database.Loops
import ObjectBridge.Proofs.Crossing.RoundTrip
import ObjectBridge.Proofs.Report.Accounting
import ObjectBridge.Proofs.Database.Termination
