import ConfigAssembly.Plugin.Type
import ConfigAssembly.Text.Case

/-!
# Plugin registry

Plugin types by the lower case of their names. Aliases lead to names; they still work but are
deprecated. A registry is filled first and then frozen, after which it stays as it is.
`Registry.registerModule` takes the plugins that a module defines.
-/

namespace ConfigAssembly

open ConfigAssembly.Text

/-- Plugin types by name. -/
structure Registry where
  /-- Types by the lower case of their names. -/
  types : Assoc String PluginType
  /-- Names, in lower case, by the lower case of aliases. -/
  aliases : Assoc String String
  frozen : Bool

/-- A plugin type that was found under a name. -/
structure Finding where
  type : PluginType
  /-- Whether the name is an alias. -/
  deprecated : Bool

/-- What a user of a deprecated name is told. -/
def deprecationNotice (name : String) (t : PluginType) : String :=
  "This name (" ++ name ++ ") is deprecated. Use " ++ t.name ++ " instead."

/-- A member of a module. -/
inductive Member where
  | plugin (d : PluginDeclaration)
  | other

/-- A module: the names that it lists, and its members. -/
structure PluginModule where
  name : String
  listed : List String
  members : Assoc String Member

/-- Why the plugins of a module cannot be registered. -/
inductive ModuleError where
  /-- The module lists a name without characters. -/
  | emptyName
  /-- The module lists a name that it has no member for. -/
  | noMember (moduleName name : String)
  | registration (e : RegistrationError)

/-- What is wrong, in words. -/
def ModuleError.message : ModuleError → String
  | .emptyName => "string index out of range"
  | .noMember m n => "module '" ++ m ++ "' has no attribute '" ++ n ++ "'"
  | .registration e => e.message

/-- Texts in the order of their characters' codes. -/
def inCodeOrder (ss : List String) : List String := ss.mergeSort fun a b => decide (a ≤ b)

/-- A module that does not say which names it lists lists all its members, in order of their
codes. -/
def PluginModule.ofMembers (name : String) (listed : Option (List String))
    (members : Assoc String Member) : PluginModule :=
  ⟨name, listed.getD (inCodeOrder members.keys), members⟩

namespace Registry

/-- A registry without plugins. -/
def empty : Registry := ⟨[], [], false⟩

/-- The plugin type under a name or an alias, in any case; names come before aliases. -/
def resolve (r : Registry) (name : String) : Option Finding :=
  let key := lower name
  match r.types.get? key with
  | some t => some ⟨t, false⟩
  | none => ((r.aliases.get? key).bind r.types.get?).map fun t => ⟨t, true⟩

/-- The plugin type under a name or an alias. -/
def get? (r : Registry) (name : String) : Option PluginType := (r.resolve name).map (·.type)

/-- What a user of a name is told. -/
def notices (r : Registry) (name : String) : List String :=
  match r.resolve name with
  | some ⟨t, true⟩ => [deprecationNotice name t]
  | _ => []

/-- Whether a name or an alias is known. -/
def contains (r : Registry) (name : String) : Bool :=
  r.types.has (lower name) || r.aliases.has (lower name)

/-- The number of plugins. -/
def size (r : Registry) : Nat := r.types.length

/-- The names of the plugins in order of their codes. -/
def names (r : Registry) : List String := inCodeOrder (r.types.values.map (·.name))

/-- Closes the registry. -/
def freeze (r : Registry) : Registry := { r with frozen := true }

/-- Writes a plugin type and its aliases. -/
def write (r : Registry) (t : PluginType) : Registry :=
  let key := lower t.name
  { r with
    types := r.types.insert key t
    aliases := r.aliases.insertAll (t.aliases.map fun a => (lower a, key)) }

/-- Registers a class under a plugin type, unless the name belongs to another class. -/
def register (r : Registry) (c : PluginClass) (t : PluginType) :
    Except RegistrationError Registry :=
  if r.frozen then .error (.frozen c.name)
  else
    match r.types.get? (lower t.name) with
    | some existing =>
      if existing.pluginClass.key == c.key then .ok (r.write t)
      else .error (.nameTaken t.name existing.pluginClass.name)
    | none => .ok (r.write t)

/-- Registers a class under the plugin type declared for it, or under standard terms. -/
def registerDeclared (r : Registry) (d : PluginDeclaration) :
    Except RegistrationError (PluginType × Registry) :=
  match d.type with
  | .error e => .error e
  | .ok t => (r.register d.pluginClass t).map fun r => (t, r)

/-- The plugin type that a module offers under a name of the wanted category, if the name is public
and the class is the module's own. -/
def offered? (m : PluginModule) (category : Option String) (name : String) :
    Except ModuleError (Option PluginType) :=
  match name.toList with
  | [] => .error .emptyName
  | '_' :: _ => .ok none
  | _ =>
    match m.members.get? name with
    | none => .error (.noMember m.name name)
    | some .other => .ok none
    | some (.plugin d) =>
      .ok (d.declared.filter fun t =>
        m.name.toList.isPrefixOf d.pluginClass.moduleName.toList &&
          (category.isNone || t.descriptor.category == category))

/-- Registers the plugins that names of a module stand for, up to the first error. -/
def registerNames (m : PluginModule) (category : Option String) :
    List String → Registry → Except ModuleError (List PluginType) × Registry
  | [], r => (.ok [], r)
  | name :: names, r =>
    match offered? m category name with
    | .error e => (.error e, r)
    | .ok none => registerNames m category names r
    | .ok (some t) =>
      match r.register t.pluginClass t with
      | .error e => (.error (.registration e), r)
      | .ok r =>
        match registerNames m category names r with
        | (.error e, r) => (.error e, r)
        | (.ok ts, r) => (.ok (t :: ts), r)

/-- Registers the plugins of a module, those of one category if one is given. -/
def registerModule (r : Registry) (m : PluginModule) (category : Option String) :
    Except ModuleError (List PluginType) × Registry :=
  registerNames m category m.listed r

end Registry
end ConfigAssembly
