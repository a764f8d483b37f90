import Reshape.Document.OfText
import Reshape.Extension.Basic
import Reshape.Mapper.Compile
import Reshape.Text.Split

/-! # Loading documents

A loader turns documents into compiled mappers and keeps them under the names of
their documents. The fields of a document become bindings: a call is tied to the
function that has its name now, and a reference to the mapper that has its name now.
What is registered later makes no difference to them, so no mapper that is loaded
embeds itself. The registries of a loader are its own: whoever shares them takes
steps of the same loader.
-/

namespace Reshape

/-- The value of an argument for each source; what a path does not find is null. -/
def Argument.evaluator : Argument → Except Error (Value → Value)
  | .path text => (Path.read text).map fun p source => (p.resolveLenient source).getD .null
  | .literal v => .ok fun _ => v

/-- The extension and the function of a call target, which its first dot divides. -/
def callTarget? (target : String) : Option (String × String) :=
  match Text.cut? ['.'] target.toList with
  | none => none
  | some (extension, function) =>
    if extension.isEmpty || function.isEmpty then none
    else some (.ofList extension, .ofList function)

/-- A function as a transform of the source; the answer null counts as absent. -/
def Function.toTransform (f : Function) (args : List (Value → Value)) : Transform := fun source =>
  match f (args.map fun arg => arg source) with
  | .ok .null => .ok none
  | .ok v => .ok (some v)
  | .error (.transform fault) => .error (.transform fault.message)
  | .error other => .error (.transform other.message)

/-- The binding of a call: first the function is found, then the arguments are read. -/
def Registry.bindCall (r : Registry) (target : String) (args : List Argument) :
    Except LoadError Binding := do
  match callTarget? target with
  | none => throw (.invalidCall target)
  | some (extension, function) =>
    let f ← r.function extension function
    let evaluators ← (args.mapM Argument.evaluator).mapError LoadError.mapping
    return .transform (f.toTransform evaluators)

/-- What the fields of documents can refer to. -/
structure Environment where
  extensions : Registry
  mappers : Entries MapperId

mutual

def FieldSpec.bind (env : Environment) : FieldSpec → Except LoadError Binding
  | .path text => .ok (.path text .nested)
  | .rule text flatten => .ok (.path text (if flatten then .flatten else .nested))
  | .call target args => env.extensions.bindCall target args
  | .mapper name source =>
    match env.mappers.get? name with
    | none => .error (.unknownMapper name)
    | some id => .ok (.mapper id source)
  | .tree fields => (bindFields env fields).map fun bindings => .tree (Entries.ofList bindings)

def bindFields (env : Environment) :
    List (String × FieldSpec) → Except LoadError (List (String × Binding))
  | [] => .ok []
  | (key, spec) :: rest => do
    let binding ← spec.bind env
    return (key, binding) :: (← bindFields env rest)

end

structure Loader extends Environment where
  /-- All mappers, whether they are registered or not. -/
  store : Store

namespace Loader

def new (extensions : Registry) : Loader := ⟨⟨extensions, []⟩, .empty⟩

def mapperNames (l : Loader) : List String := sortNames l.mappers.keys

def register (name : String) (id : MapperId) (l : Loader) : Loader :=
  { l with mappers := l.mappers.put name id }

/-- Build and compile the mapper of a document, without registering it. -/
def load (l : Loader) (d : Document) : Except LoadError MapperId × Loader :=
  match bindFields l.toEnvironment d.fields with
  | .error e => (.error e, l)
  | .ok bindings =>
    let (id, store) := l.store.add (.new (Entries.ofList bindings) d.defaults d.mode)
    let (compiled, store) := store.compile id
    match compiled with
    | .error e => (.error (.mapping e), { l with store })
    | .ok _ => (.ok id, { l with store })

def loadAndRegister (l : Loader) (d : Document) : Except LoadError MapperId × Loader :=
  match l.load d with
  | (.error e, l) => (.error e, l)
  | (.ok id, l) => (.ok id, l.register d.name id)

/-- Load and register a document that may not have been read. -/
def loadParsed (l : Loader) (parsed : Except ParseFault Document) :
    Except LoadError MapperId × Loader :=
  match parsed with
  | .error fault => (.error (.parse fault), l)
  | .ok d => l.loadAndRegister d

def loadText (l : Loader) (text : String) : Except LoadError MapperId × Loader :=
  l.loadParsed (Document.ofText text)

/-- Load and register the document in a file, given its content unless it does not exist. -/
def loadFile (l : Loader) (path : String) (content? : Option String) :
    Except LoadError MapperId × Loader :=
  l.loadParsed (Document.ofFile path content?)

def execute (l : Loader) (id : MapperId) (source : Value) : Except Error Outcome × Loader :=
  let (result, store) := l.store.execute id source
  (result, { l with store })

end Loader

end Reshape
