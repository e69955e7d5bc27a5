import ProtoPascal.Runtime

/-!
Options of a generation request: a list of entries `key=value` with commas between them. There is
one option, the namespace of the runtime library.
-/

namespace ProtoPascal.Request

/-- The options of a request. -/
structure Options where
  /-- The namespace of the runtime library, if one is chosen. -/
  runtimeNamespace : Option String := none
deriving DecidableEq, Repr

/-- The options with a given namespace. A blank namespace is no choice. -/
def Options.withRuntimeNamespace (namespaceName : Option String) : Options :=
  ⟨(namespaceName.map Text.trim).filter fun name => !name.isEmpty⟩

/-- The runtime library that the options choose. -/
def Options.runtime (options : Options) : Runtime :=
  match options.runtimeNamespace with
  | some namespaceName => ⟨namespaceName⟩
  | none => .reference

/-- The entries of a parameter that are not blank, without the blanks around them. -/
def entries (parameter : String) : List String :=
  ((Text.pieces ',' parameter).map Text.trim).filter fun entry => !entry.isEmpty

/-- The options that a single entry stands for. -/
def Options.ofEntry (entry : String) : Except Error Options :=
  match Text.splitFirst? '=' entry with
  | some (key, value) =>
    if Text.trim key = "runtime_namespace" then .ok (.withRuntimeNamespace (some value))
    else .error (.unimplementedOption (Text.trim key))
  | none => .error (.unimplementedOption entry)

/-- The options of a list of entries, of which the last counts. -/
def Options.ofEntries (options : Options) : List String → Except Error Options
  | [] => .ok options
  | entry :: rest => do
    let next ← Options.ofEntry entry
    Options.ofEntries next rest

/-- The options that a parameter stands for. -/
def Options.parse (parameter : String) : Except Error Options :=
  Options.ofEntries {} (entries parameter)

end ProtoPascal.Request
