import Lisplet.Main
import Lisplet.Expr.Access
import Lisplet.Expr.Object
import Lisplet.Host.FileTree
import Lisplet.Store.Access
import Lisplet.Store.Printer
import Lisplet.Proofs.Reader.Legible
import Lisplet.Proofs.Repl.Dialogue
import Lisplet.Proofs.Eval.Depth
import Lisplet.Proofs.Eval.Settled
import Lisplet.Proofs.Eval.Unmentioned
import Lisplet.Proofs.Eval.Unnoticed
import Lisplet.Proofs.Repl.Compose
import Lisplet.Proofs.Repl.Transcript
import Lisplet.Proofs.Interpreter.Load
import Lisplet.Proofs.Reader.Append
import Lisplet.Proofs.Reader.Grammar
import Lisplet.Proofs.Reader.Itemized
import Lisplet.Proofs.Reader.Queue
import Lisplet.Proofs.Eval.Invariant
import Lisplet.Proofs.Eval.Exact
import Lisplet.Proofs.Reader.Decomposition
import Lisplet.Proofs.Reader.PlainText
import Lisplet.Proofs.Eval.Template
import Lisplet.Proofs.Bare.Basic
import Lisplet.Proofs.Bare.Form
import Lisplet.Proofs.Bare.Guarded
import Lisplet.Proofs.Primitive.Comparison
import Lisplet.Proofs.Expr.Equality
import Lisplet.Proofs.Reader.Literal
import Lisplet.Proofs.Reader.ClosureText
import Lisplet.Proofs.Store.History
import Lisplet.Proofs.Eval.Agreement
