import Script.Main
import Script.Tree.Outline
import Script.Tree.Same
import Script.Proofs.Grammar.Language
import Script.Proofs.Reachable
import Script.Proofs.Scan.Scanned
import Script.Proofs.Recovery.Block
import Script.Proofs.Grammar.ProperTrees
import Script.Proofs.Scan.Joined
import Script.Proofs.Scan.Layout
import Script.Proofs.Recovery.TooDeep
import Script.Proofs.Progress
import Script.Proofs.Tree.Alike
import Script.Proofs.Grammar.Course
import Script.Proofs.Parallel.Kinds
import Script.Proofs.Diagnostics
import Script.Proofs.Grammar.Kept
import Script.Proofs.Grammar.Carrying
import Script.Proofs.Grammar.Accounting
import Script.Proofs.Grammar.Width
import Script.Proofs.Recovery.Limit
import Script.Proofs.Grammar.Comparing
import Script.Proofs.Grammar.BareEqual
import Script.Proofs.Grammar.InvalidTarget
import Script.Proofs.Tree.Rendering
import Script.Proofs.Text.Literals
import Script.Proofs.Scan.Lexemes
import Script.Proofs.Tree.Legible
import Script.Proofs.Tree.Resembling
import Script.Proofs.Unambiguous
import Script.Proofs.Parallel.Closing
import Script.Proofs.Grammar.Beginning
import Script.Proofs.Grammar.Giving
import Script.Proofs.Parallel.ClosingTrees
import Script.Proofs.Parallel.Elsewhere
import Script.Proofs.Expansion
import Script.Proofs.Text.Lookup
import Script.Proofs.Text.InLines
import Script.Proofs.Text.Quoting
import Script.Proofs.Tokens
import Script.Proofs.Tree.Traversal
import Script.Proofs.Scan.OneLine
import Script.Proofs.Tree.OneLine
import Script.Proofs.Output
import Script.Proofs.Recovery.Boundary
import Script.Proofs.Grammar.Exhausted
import Script.Proofs.Grammar.Ending
import Script.Proofs.Grammar.LastPart
import Script.Proofs.Greedy
