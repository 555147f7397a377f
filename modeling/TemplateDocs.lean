import TemplateDocs.Disk.FileTree
import TemplateDocs.Main
import TemplateDocs.Proofs.Bytes.Parse
import TemplateDocs.Proofs.Cli.Check
import TemplateDocs.Proofs.Comment.Meaning
import TemplateDocs.Proofs.Concatenation.Tree
import TemplateDocs.Proofs.Header.Existence
import TemplateDocs.Proofs.Header.Printing
import TemplateDocs.Proofs.Header.Word
import TemplateDocs.Proofs.Index.Aggregation
import TemplateDocs.Proofs.Index.Decoding
import TemplateDocs.Proofs.Index.InputOrder
import TemplateDocs.Proofs.Index.Isolation
import TemplateDocs.Proofs.LineBreak.Document
import TemplateDocs.Proofs.Position.LineTable
import TemplateDocs.Proofs.Record.Attachment
import TemplateDocs.Proofs.Region.Disjoint
import TemplateDocs.Proofs.Region.Neighbours
import TemplateDocs.Proofs.Replacement.Tree
import TemplateDocs.Proofs.Tree.Language
