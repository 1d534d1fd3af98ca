import TestLens.Disk.Volume
import TestLens.Main
import TestLens.Proofs.Appending
import TestLens.Proofs.Comments
import TestLens.Proofs.Descent
import TestLens.Proofs.Forms
import TestLens.Proofs.Lines
import TestLens.Proofs.Literals
import TestLens.Proofs.Numbering
import TestLens.Proofs.Openers
import TestLens.Proofs.Relocation
import TestLens.Proofs.Search
import TestLens.Proofs.Segments
import TestLens.Proofs.Traces
