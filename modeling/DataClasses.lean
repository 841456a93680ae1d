import DataClasses.Main
import DataClasses.Proofs.Identifier.Alphabet
import DataClasses.Proofs.Identifier.Naming
import DataClasses.Proofs.Token.Scanning
import DataClasses.Proofs.Token.Layout
import DataClasses.Proofs.ClassTree.Layout
import DataClasses.Proofs.Declaration.Growth
import DataClasses.Proofs.Declaration.Steps
import DataClasses.Proofs.Declaration.Types
import DataClasses.Proofs.Declaration.Heads
import DataClasses.Proofs.Declaration.Members
import DataClasses.Proofs.Declaration.Classes
import DataClasses.Proofs.Declaration.Sources
import DataClasses.Proofs.ClassTree.Inference
import DataClasses.Proofs.Declaration.Nesting
import DataClasses.Proofs.Binding.FullNames
import DataClasses.Proofs.Reference.Exports
import DataClasses.Proofs.Reference.Registered
import DataClasses.Proofs.Binding.Imports
import DataClasses.Proofs.Binding.Lookups
import DataClasses.Proofs.Binding.Members
import DataClasses.Proofs.Binding.Repeats
import DataClasses.Proofs.Binding.Sources
import DataClasses.Proofs.Compilation.Generated
import DataClasses.Proofs.Compilation.WellFormed
import DataClasses.Proofs.Compilation.Samples
import DataClasses.Proofs.Compilation.TypeNames
import DataClasses.Proofs.Compilation.Outlines
import DataClasses.Proofs.Compilation.ReadBack
import DataClasses.Proofs.Compilation.Modules
import DataClasses.Proofs.Json.Reads
import DataClasses.Proofs.Json.Written
import DataClasses.Proofs.Module.Manifest
import DataClasses.Proofs.Files.Tree
import DataClasses.Proofs.Module.Opened
import DataClasses.Proofs.Module.Integrity
import DataClasses.Proofs.Compiler.Agreement
import DataClasses.Proofs.Compiler.Caches
import DataClasses.Proofs.Compiler.Dependencies
import DataClasses.Proofs.Declaration.Progress
import DataClasses.Proofs.Walk.Basic
import DataClasses.Proofs.Walk.Skip
import DataClasses.Proofs.Walk.Types
import DataClasses.Proofs.Walk.Heads
import DataClasses.Proofs.Walk.Members
import DataClasses.Proofs.Walk.Units
import DataClasses.Proofs.Walk.Sources
import DataClasses.Proofs.Declaration.Extent
import DataClasses.Proofs.Declaration.Origins
import DataClasses.Proofs.Binding.Lines
import DataClasses.Proofs.Token.Lines
import DataClasses.Proofs.Compiler.Lines
import DataClasses.Proofs.Binding.Parts
import DataClasses.Proofs.Binding.Placed
import DataClasses.Proofs.Binding.Sites
import DataClasses.Proofs.Declaration.Equality
import DataClasses.Proofs.Binding.Clashes
import DataClasses.Proofs.Binding.Merging
import DataClasses.Proofs.Binding.MemberNames
import DataClasses.Proofs.Declaration.Inside
import DataClasses.Proofs.Declaration.Words
import DataClasses.Proofs.Binding.Meanings
import DataClasses.Proofs.Binding.Types
import DataClasses.Proofs.Binding.Resolved
import DataClasses.Proofs.Binding.Reach
import DataClasses.Proofs.Binding.Frame
import DataClasses.Proofs.Binding.References
import DataClasses.Proofs.Binding.FullTexts
import DataClasses.Proofs.Binding.Constructed
import DataClasses.Proofs.Binding.Rearranged
import DataClasses.Proofs.ClassTree.Occurrences
import DataClasses.Proofs.Json.Keys
import DataClasses.Proofs.ClassTree.Consistent
import DataClasses.Proofs.ClassTree.Similar
import DataClasses.Proofs.Token.Keys
import DataClasses.Proofs.Token.Marks
import DataClasses.Proofs.Declaration.Spelling
import DataClasses.Proofs.Declaration.SpelledTypes
import DataClasses.Proofs.Declaration.OneClass
import DataClasses.Proofs.Declaration.BaseTypes
import DataClasses.Proofs.Token.OwnLines
import DataClasses.Proofs.Token.Joined
import DataClasses.Proofs.Token.Respelled
import DataClasses.Proofs.Token.Literals
import DataClasses.Proofs.Declaration.Balance
import DataClasses.Proofs.Declaration.FieldNames
import DataClasses.Proofs.Declaration.Creation
import DataClasses.Proofs.Declaration.Bodies
import DataClasses.Proofs.Declaration.BodySources
import DataClasses.Proofs.Declaration.NestedBlocks
import DataClasses.Proofs.Declaration.TooDeep
import DataClasses.Proofs.Module.Tampered
import DataClasses.Proofs.Timestamp.Shapes
import DataClasses.Proofs.Reference.Arity
import DataClasses.Proofs.Json.Documents
