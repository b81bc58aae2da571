import ConfigAssembly.Log
import ConfigAssembly.Plugin.Class

/-!
# Plugin types

A plugin type is a plugin class together with the terms under which it is declared and its strategy:
the entry points that were found, at most one of each kind. `Strategy.ofClass` refuses a class whose
entry points are ambiguous or cannot be called.
-/

namespace ConfigAssembly

/-- Why a plugin cannot be declared or registered. -/
inductive RegistrationError where
  /-- An entry point needs an instance. -/
  | needsInstance (kind : EntryKind) (className method : String)
  /-- A class has several entry points of one kind. -/
  | severalEntries (kind : EntryKind) (className : String) (methods : List String)
  /-- A builder factory cannot be called without arguments. -/
  | takesArguments (className method : String) (parameters : List String)
  /-- The registry is closed. -/
  | frozen (className : String)
  /-- The name belongs to another class. -/
  | nameTaken (name className : String)
  deriving DecidableEq, Repr

/-- The character that sets off the name of a method in messages. -/
def methodQuote : String := String.singleton '\x60'

/-- What is wrong, in words. -/
def RegistrationError.message : RegistrationError → String
  | .needsInstance kind c m =>
    "The " ++ kind.label ++ " " ++ methodQuote ++ c ++ "." ++ m ++ methodQuote ++
      " must be a static or class method."
  | .severalEntries kind c ms =>
    "Class " ++ c ++ " declares more than one " ++ kind.label ++ ": " ++ Text.quotedList ms ++
      ". Only one is allowed."
  | .takesArguments c m ps =>
    "The builder factory " ++ methodQuote ++ c ++ "." ++ m ++ methodQuote ++
      " must not take arguments, got " ++
    Text.quotedList ps ++ "."
  | .frozen c => "Cannot register " ++ c ++ ": the plugin registry is frozen."
  | .nameTaken n c => "Plugin name '" ++ n ++ "' is already registered by " ++ c ++ "."

/-- A factory that was found. -/
structure Factory where
  method : String
  inputs : List Input
  create : List Value → Except Fault Value

/-- A builder factory that was found. -/
structure BuilderFactory where
  method : String
  start : Except Fault (Option BuilderClass)

/-- The entry points of a class. -/
structure Strategy where
  builderFactory : Option BuilderFactory
  factory : Option Factory

namespace Strategy

/-- A strategy without entry points. -/
def isEmpty (s : Strategy) : Bool := s.builderFactory.isNone && s.factory.isNone

/-- The methods of one kind. The first that needs an instance is an error, and so is a second
method. -/
def entry? (c : PluginClass) (kind : EntryKind) : Except RegistrationError (Option Method) :=
  let ms := c.methods.filter (·.entry.kind == kind)
  match ms.find? (·.form == .ofInstance) with
  | some m => .error (.needsInstance kind c.name m.name)
  | none =>
    match ms with
    | [] => .ok none
    | [m] => .ok (some m)
    | ms => .error (.severalEntries kind c.name (ms.map (·.name)))

/-- The builder factory that a method is. -/
def builderFactory? (c : PluginClass) (m : Method) :
    Except RegistrationError (Option BuilderFactory) :=
  match m.entry with
  | .builderFactory parameters start =>
    let required := (parameters.filter (!·.2)).map (·.1)
    if required.isEmpty then .ok (some ⟨m.name, start⟩)
    else .error (.takesArguments c.name m.name required)
  | .factory .. => .ok none

/-- The factory that a method is. -/
def factory? (m : Method) : Option Factory :=
  match m.entry with
  | .factory parameters create => some ⟨m.name, Input.ofParameters parameters, create⟩
  | .builderFactory .. => none

/-- The entry points of a class. -/
def ofClass (c : PluginClass) : Except RegistrationError Strategy :=
  match entry? c .builderFactory, entry? c .factory with
  | .error e, _ => .error e
  | _, .error e => .error e
  | .ok b, .ok f =>
    match b with
    | none => .ok ⟨none, f.bind factory?⟩
    | some m =>
      match builderFactory? c m with
      | .error e => .error e
      | .ok b => .ok ⟨b, f.bind factory?⟩

/-- What is reported when the entry points of a class have been found. -/
def records (s : Strategy) (c : PluginClass) : Log :=
  (s.builderFactory.toList.map fun b =>
    Record.debug ("Found builder factory method " ++ c.name ++ "." ++ b.method ++ ".")) ++
  (s.factory.toList.map fun f =>
    Record.debug ("Found factory method " ++ c.name ++ "." ++ f.method ++ "."))

end Strategy

/-- The terms under which a class is declared as a plugin. -/
structure Terms where
  /-- Name of the plugin, by default that of the class. -/
  name : Option String
  category : Option String
  /-- Name of its elements in diagnostics, by default that of the plugin. -/
  elementType : Option String
  deferChildren : Bool
  aliases : List String

/-- The terms of a plugin about which nothing is said. -/
def Terms.standard : Terms := ⟨none, some "core", none, false, []⟩

/-- A text that is there and not empty. -/
def nonEmpty? (s : Option String) : Option String := s.filter fun s => !s.isEmpty

/-- A plugin type. -/
structure PluginType where
  pluginClass : PluginClass
  descriptor : Descriptor
  strategy : Strategy

namespace PluginType

/-- Name of the plugin. -/
def name (t : PluginType) : String := t.descriptor.name

/-- Name of its elements in diagnostics. -/
def elementName (t : PluginType) : String := t.descriptor.elementName

/-- Whether it looks after the elements below its own. -/
def deferChildren (t : PluginType) : Bool := t.descriptor.deferChildren

/-- Names that are still understood but deprecated. -/
def aliases (t : PluginType) : List String := t.descriptor.aliases

/-- What a class is known by under given terms. -/
def describe (c : PluginClass) (terms : Terms) : Descriptor :=
  let name := (nonEmpty? terms.name).getD c.name
  ⟨c.name, c.moduleName, name, terms.category,
    (nonEmpty? terms.elementType).getD name, terms.deferChildren, terms.aliases⟩

/-- The plugin type of a class under given terms. -/
def ofClass (c : PluginClass) (terms : Terms) : Except RegistrationError PluginType :=
  (Strategy.ofClass c).map fun s => ⟨c, describe c terms, s⟩

/-- What is reported when a plugin type has been made. -/
def records (t : PluginType) : Log := t.strategy.records t.pluginClass

end PluginType

/-- A class with the plugin type that was declared for it, if one was. -/
structure PluginDeclaration where
  pluginClass : PluginClass
  declared : Option PluginType

/-- The plugin type of a class: the declared one, or one under standard terms. -/
def PluginDeclaration.type (d : PluginDeclaration) : Except RegistrationError PluginType :=
  match d.declared with
  | some t => .ok t
  | none => PluginType.ofClass d.pluginClass .standard

/-- What is reported when the plugin type of a class is asked for: nothing if it was declared
before. -/
def PluginDeclaration.records (d : PluginDeclaration) : Log :=
  match d.declared with
  | some _ => []
  | none =>
    match d.type with
    | .ok t => t.records
    | .error _ => []

end ConfigAssembly
