import SampleMethods.Main
import SampleMethods.Proofs.DataFile.Addition
import SampleMethods.Proofs.DataFile.Violation
import SampleMethods.Proofs.Inventory.Collection
import SampleMethods.Proofs.Project.Determinism
import SampleMethods.Proofs.Region.Attachment
import SampleMethods.Proofs.Region.Pairing
import SampleMethods.Proofs.Source.Enclosure
import SampleMethods.Proofs.Path.Parent
import SampleMethods.Proofs.Path.Prefix
import SampleMethods.Proofs.FileTree.Reach
import SampleMethods.Proofs.Config.RelativePath
import SampleMethods.Proofs.Project.Subtree
import SampleMethods.Proofs.FileTree.LinkFree
import SampleMethods.Proofs.Config.Discovery
import SampleMethods.Proofs.CommandLine.RepositoryRoot
import SampleMethods.Proofs.Path.Below
import SampleMethods.Proofs.FileTree.Spelling
import SampleMethods.Proofs.Source.Naming
import SampleMethods.Proofs.Project.Spelling
import SampleMethods.Proofs.Wrapper.Delegation
import SampleMethods.Proofs.Path.Name
import SampleMethods.Proofs.FileTree.Entered
import SampleMethods.Proofs.Project.SourceFiles
import SampleMethods.Proofs.Report.RoundTrip
import SampleMethods.Proofs.CommandLine.Output
import SampleMethods.Proofs.Invocation.Scope
import SampleMethods.Proofs.Source.Formatting
import SampleMethods.Proofs.CommandLine.FailedOutput
import SampleMethods.Proofs.Region.Matching
import SampleMethods.Proofs.Source.Listing
import SampleMethods.Proofs.Wrapper.Lines
import SampleMethods.Proofs.Config.DefaultExclude
import SampleMethods.Proofs.Config.Package
import SampleMethods.Proofs.Region.Comment
import SampleMethods.Proofs.Report.Table
import SampleMethods.Proofs.Region.Ending
import SampleMethods.Proofs.Region.ByteOrderMark
import SampleMethods.Proofs.Region.Slicing
