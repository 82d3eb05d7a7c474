import RepoAtlas.Main
import RepoAtlas.Metric.Keyword
import RepoAtlas.Proofs.CallGraph.Collision
import RepoAtlas.Proofs.CallGraph.Implementation
import RepoAtlas.Proofs.CallGraph.NameLookup
import RepoAtlas.Proofs.CallGraph.Pool
import RepoAtlas.Proofs.CallGraph.Telling
import RepoAtlas.Proofs.Extract.Attribution
import RepoAtlas.Proofs.Extract.DefinitionName
import RepoAtlas.Proofs.Extract.DirectCall
import RepoAtlas.Proofs.Extract.Documentation
import RepoAtlas.Proofs.Extract.EmbeddedType
import RepoAtlas.Proofs.Extract.ErrorResult
import RepoAtlas.Proofs.Extract.Import
import RepoAtlas.Proofs.Extract.LastDefinition
import RepoAtlas.Proofs.Extract.LocalVariable
import RepoAtlas.Proofs.Extract.MethodSet
import RepoAtlas.Proofs.Extract.Namespace
import RepoAtlas.Proofs.Extract.ReceiverName
import RepoAtlas.Proofs.Extract.Scope
import RepoAtlas.Proofs.Extract.ScriptCaller
import RepoAtlas.Proofs.Extract.ScriptName
import RepoAtlas.Proofs.Extract.ScriptPlace
import RepoAtlas.Proofs.Extract.SourceCode
import RepoAtlas.Proofs.Extract.Template
import RepoAtlas.Proofs.Extract.TypeGroup
import RepoAtlas.Proofs.Graph.DependencyOrder
import RepoAtlas.Proofs.Graph.Leaves
import RepoAtlas.Proofs.Graph.Locality
import RepoAtlas.Proofs.Metric.Assignment
import RepoAtlas.Proofs.Metric.Nesting
import RepoAtlas.Proofs.Report.Influence
import RepoAtlas.Proofs.Report.Map
import RepoAtlas.Proofs.Report.Script
import RepoAtlas.Proofs.Repository.EntryPoint
import RepoAtlas.Proofs.Repository.Pattern
import RepoAtlas.Proofs.Repository.Root
import RepoAtlas.Proofs.Repository.Spelling
import RepoAtlas.Proofs.Repository.Stages
import RepoAtlas.Proofs.Repository.Support
import RepoAtlas.Proofs.Settings.Loading
import RepoAtlas.Repository.Clone
