import ConfigAssembly.Plugin.Class

/-!
# Recipes

Simple things that a constructor may do: make an instance with given fields, deliver one of its
values, deliver nothing, or fail. `Recipe.create` and `Recipe.build` are the functions that a
factory and a builder need.
-/

namespace ConfigAssembly

/-- What a constructor does. -/
inductive Recipe where
  /-- Makes an instance with all values as its fields. -/
  | assemble
  /-- Delivers nothing. -/
  | nothing
  /-- Delivers one of the values. -/
  | select (name : String)
  | fail (f : Fault)

namespace Recipe

/-- What a factory of a class does with the values of its parameters. -/
def create (r : Recipe) (className : String) (parameters : List String) (xs : List Value) :
    Except Fault Value :=
  match r with
  | .assemble => .ok (.object className (parameters.zip xs))
  | .nothing => .ok .null
  | .select name =>
    match (parameters.zip xs).lookup name with
    | some x => .ok x
    | none => .error (.said .key name)
  | .fail f => .error f

/-- A field of a builder; one that is not set cannot be asked for. -/
def fieldOf (label : String) (fields : Fields) (name : String) : Except Fault Value :=
  match fields.get? name with
  | some x => .ok x
  | none => .error (.missing label name)

/-- What a builder of a class does with its fields, given their names in order. -/
def build (r : Recipe) (className label : String) (names : List String) (fields : Fields) :
    Except Fault Value :=
  match r with
  | .assemble =>
    (names.mapM fun n => (fieldOf label fields n).map fun x => (n, x)).map (.object className)
  | .nothing => .ok .null
  | .select name => fieldOf label fields name
  | .fail f => .error f

/-- What a builder factory of a class opens if it does not open a builder of its own: an instance of
the class is a builder that cannot build. -/
def start (r : Recipe) (className : String) : Except Fault (Option BuilderClass) :=
  match r with
  | .assemble => .ok (some ⟨className, [], none⟩)
  | .nothing | .select _ => .ok none
  | .fail f => .error f

end Recipe
end ConfigAssembly
