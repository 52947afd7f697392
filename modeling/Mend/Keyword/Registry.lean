import Mend.Syntax.Naming
import Mend.Text.Basic

/-!
# API registry

Which API a name of a program belongs to: a package that the file binds to the name by `require` or
`import`, a global object, or a package known by the name itself. A name that the file declares for
itself is no package, unless it is bound to one.
-/

namespace Mend.Keyword

open Syntax (Ast)

/-- The modules that come with the runtime. -/
def coreModules : List String :=
  ["assert", "buffer", "child_process", "cluster", "crypto", "dns", "events", "fs", "http", "https",
   "net", "os", "path", "querystring", "readline", "stream", "tls", "url", "util", "vm", "zlib"]

/-- The objects that every script can reach. -/
def globalObjects : List String :=
  ["Array", "Buffer", "Date", "Error", "JSON", "Math", "Number", "Object", "Promise", "RegExp",
   "String", "console", "process"]

/-- The names of a file that stand for packages, and those that the file declares for itself. -/
structure Registry where
  /-- Each bound name once, with its package. -/
  bindings : List (String × String)
  shadowed : List String
  deriving Repr, Inhabited

namespace Registry

/-- The registry of a file without declarations. -/
def empty : Registry := ⟨[], []⟩

/-- Binds a name to a package, in place of any package it was bound to. -/
def bind (r : Registry) (name package : String) : Registry :=
  { r with bindings := (name, package) :: r.bindings.filter (·.1 != name) }

/-- Notes that the file declares a name for itself. -/
def shadow (r : Registry) (name : String) : Registry := { r with shadowed := name :: r.shadowed }

/-- The package or global object that a name stands for. -/
def packageOf? (r : Registry) (name : String) : Option String :=
  match r.bindings.find? (·.1 == name) with
  | some (_, package) => some package
  | none => globalObjects.find? (· == name)

/-- Whether a name is that of a package: a core module or one that the file binds. -/
def isPackageName (r : Registry) (name : String) : Bool :=
  coreModules.contains name || r.bindings.any (·.2 == name)

/-- The API that a name stands for when it is used. -/
def namespaceOf? (r : Registry) (name : String) : Option String :=
  match r.packageOf? name with
  | some package => some package
  | none => if r.isPackageName name && !r.shadowed.contains name then some name else none

end Registry

/-- The content of a string literal. -/
def unquoted (a : Ast) (i : Nat) : String :=
  Text.trim (fun c => c == '\'' || c == '"' || c == '\x60') (a.text i)

/-- The package that a call of `require` asks for. -/
def requiredPackage? (a : Ast) (call : Nat) : Option String := do
  if a.kind call ≠ "call_expression" then none
  let callee ← a.child? call "function"
  if a.kind callee ≠ "identifier" ∨ a.label callee ≠ "require" then none
  let first ← a.firstChild? (← a.child? call "arguments")
  if a.kind first = "string" then some (unquoted a first) else none

namespace Registry

/-- What a declarator declares: a name bound to a package, the names of an object pattern bound to one, or
a name of the file's own. -/
def declare (a : Ast) (r : Registry) (declarator : Nat) : Registry :=
  match a.child? declarator "name" with
  | none => r
  | some name =>
    let package := (a.child? declarator "value").bind (requiredPackage? a)
    match a.kind name, package with
    | "identifier", some package => r.bind (a.label name) package
    | "identifier", none => r.shadow (a.label name)
    | "object_pattern", some package =>
      (a.descendants name).foldl (fun r i =>
        if a.kind i == "shorthand_property_identifier_pattern" || a.kind i == "identifier" then
          r.bind (a.label i) package
        else r) r
    | _, _ => r

/-- Whether an identifier is the name of an imported thing that the file gives another name. -/
def isAliasedAway (a : Ast) (i : Nat) : Bool :=
  (a.parent? i).any fun p =>
    a.kind p == "import_specifier" && a.field? i == some "name" && (a.child? p "alias").isSome

/-- The names that an import binds. -/
def bindImport (a : Ast) (r : Registry) (statement : Nat) : Registry :=
  match (a.child? statement "source").map (unquoted a) with
  | none => r
  | some package =>
    (a.descendants statement).foldl (fun r i =>
      if a.kind i == "identifier" && !isAliasedAway a i then r.bind (a.label i) package else r) r

/-- What a node tells about the names of the file. -/
def enter (a : Ast) (r : Registry) (i : Nat) : Registry :=
  match a.kind i with
  | "variable_declarator" => declare a r i
  | "import_statement" => bindImport a r i
  | "formal_parameters" =>
    (a.children i).foldl (fun r p => if a.kind p == "identifier" then r.shadow (a.label p) else r) r
  | _ => r

/-- The registry of a file. -/
def ofAst (a : Ast) : Registry := a.ids.foldl (enter a) empty

end Registry

end Mend.Keyword
