import ConfigAssembly.Yaml.Graph

/-!
# Merging of mappings

At the merge key of a mapping there is another mapping, or a sequence of such, whose entries come
before those of the mapping itself and have less weight than they. `mergeKeys` puts them in their
place. Of several mappings in a sequence the last comes first.
-/

namespace ConfigAssembly.Yaml

/-- Changes a graph. -/
abbrev Merger := StateT Graph (Except Fault)

namespace Merger

/-- What a node holds. -/
def shape? (id : NodeId) : Merger (Option Shape) := return (← get).shape? id

/-- The tag of a node. -/
def tag? (id : NodeId) : Merger (Option Tag) := return (← get).tag? id

/-- The entries of a mapping; something else has none. -/
def entries (id : NodeId) : Merger (List (NodeId × NodeId)) := do
  match ← shape? id with
  | some (.mapping es) => pure es
  | _ => throw .malformed

/-- Replaces the entries of a mapping. -/
def setEntries (id : NodeId) (es : List (NodeId × NodeId)) : Merger Unit :=
  modify fun g => g.setShape id (.mapping es)

/-- Puts the entries that the merge keys of a mapping ask for in front of its own. A special key
that is met becomes a text. -/
def mergeKeys (fuel : Nat) (id : NodeId) : Merger Unit :=
  match fuel with
  | 0 => throw .malformed
  | fuel + 1 => do
    let mergedFrom := fun (source : NodeId) => do
      mergeKeys fuel source
      entries source
    let step := fun (place : Nat × List (NodeId × NodeId)) (_ : NodeId × NodeId) => do
      let (index, merged) := place
      let es ← entries id
      match es[index]? with
      | none => pure (index, merged)
      | some (key, value) =>
        match ← tag? key with
        | some .merge => do
          setEntries id (es.eraseIdx index)
          match ← shape? value with
          | some (.mapping _) => pure (index, merged ++ (← mergedFrom value))
          | some (.sequence sources) =>
            pure (index, merged ++ (← sources.mapM mergedFrom).reverse.flatten)
          | _ => throw .malformed
        | some .default => do
          modify fun g => g.setTag key .str
          pure (index + 1, merged)
        | _ => pure (index + 1, merged)
    let (_, merged) ← (← entries id).foldlM step (0, [])
    if !merged.isEmpty then setEntries id (merged ++ (← entries id))

end Merger

/-- The number of entries in the mappings of a graph. -/
def Graph.entryCount (g : Graph) : Nat :=
  g.foldl (fun n x => n + match x.shape with
    | .mapping es => es.length
    | _ => 0) 0

end ConfigAssembly.Yaml
