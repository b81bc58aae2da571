import Mathlib.Data.List.Chain
import Mathlib.Data.List.Nodup
import Mathlib.Data.List.Perm.Subperm
import Mathlib.Logic.Relation
import ConfigAssembly.Document.Load
import ConfigAssembly.Proofs.Yaml.Inclusion

/-!
# Files that include each other

The loader keeps the full paths that are being read, and a file has two of them. Chains are chains
of full paths; where it is about cycles, files are meant. The loader is compared with what it should
do:

* `Files.nested` is the recursion with a bound on the depth and a check of every chain: neither ever
  stops it (`nested_eq`), because a `Chain` has no full path twice.
* `Files.acyclicFrom_iff`: files form a cycle where their full paths do.
* `exists_chain_of_cycle`: a cycle is reported where the last file of a chain includes one of it.
* `Files.plain` is the recursion that looks at no chain: below a file from which no cycle can be
  reached it comes to the same (`plain_eq`), however many chains lead there.
* `Loaded.acyclicFrom`: from a file that can be loaded no cycle can be reached.
-/

namespace ConfigAssembly

open Relation

/-! ### Texts of full paths -/

/-- A place that a file can be at: it has names, none is empty, and none has a slash. -/
def Place.Proper (place : Place) : Prop :=
  place ≠ [] ∧ ∀ name ∈ place, name ≠ "" ∧ '/' ∉ name.toList

namespace FullPath

/-- Names between slashes are the pieces of their text. -/
theorem pieces_intercalate {names : List (List Char)} (hne : names ≠ [])
    (h : ∀ cs ∈ names, '/' ∉ cs) :
    Text.pieces (· == '/') (['/'].intercalate names) = names := by
  induction names with
  | nil => exact absurd rfl hne
  | cons cs names ih =>
    obtain ⟨hcs, hnames⟩ := List.forall_mem_cons.1 h
    have hpiece : Text.pieces (· == '/') cs = [cs] := by
      refine Text.pieces_of_forall fun c hc => ?_
      rw [beq_eq_false_iff_ne]
      rintro rfl
      exact hcs hc
    cases names with
    | nil => simpa [List.intercalate] using hpiece
    | cons cs' names =>
      rw [List.intercalate_cons_cons, List.append_assoc, List.singleton_append,
        Text.pieces_append_cons (by decide), hpiece, ih (List.cons_ne_nil _ _) hnames]
      rfl

/-- The names of a full path: the root gives an empty one for each slash. -/
theorem names_text {p : FullPath} (h : p.place.Proper) :
    names p.text = if p.doubled then "" :: "" :: p.place else "" :: p.place := by
  obtain ⟨doubled, place⟩ := p
  have hmap : place.map String.toList ≠ [] := by simpa using h.1
  have hslash : ∀ cs ∈ place.map String.toList, '/' ∉ cs := by
    simpa using fun name hname => (h.2 name hname).2
  have hplace : Text.pieces (· == '/') (['/'].intercalate (place.map String.toList)) =
      place.map String.toList := pieces_intercalate hmap hslash
  have hback : (place.map String.toList).map String.ofList = place := by simp
  cases doubled with
  | false =>
    have htext : (text ⟨false, place⟩).toList =
        '/' :: ['/'].intercalate (place.map String.toList) := by
      rw [text, if_neg Bool.false_ne_true, String.toList_append, String.toList_intercalate]
      rfl
    rw [names, htext, Text.pieces, if_pos (by decide), hplace, List.map_cons, hback]
    rfl
  | true =>
    have htext : (text ⟨true, place⟩).toList =
        '/' :: '/' :: ['/'].intercalate (place.map String.toList) := by
      rw [text, if_pos rfl, String.toList_append, String.toList_intercalate]
      rfl
    rw [names, htext, Text.pieces, if_pos (by decide), Text.pieces, if_pos (by decide), hplace,
      List.map_cons, List.map_cons, hback]
    rfl

/-- Different full paths of files are written differently. -/
theorem text_inj {p q : FullPath} (hp : p.place.Proper) (hq : q.place.Proper)
    (h : p.text = q.text) : p = q := by
  have hnames := names_text hp
  rw [h, names_text hq] at hnames
  have hempty : ∀ {place : Place}, place.Proper → "" ∉ place := fun hplace hmem =>
    (hplace.2 "" hmem).1 rfl
  obtain ⟨pd, pp⟩ := p
  obtain ⟨qd, qp⟩ := q
  cases pd <;> cases qd
  · obtain rfl := (List.cons.inj hnames).2
    rfl
  · have hplace : "" :: qp = pp := (List.cons.inj hnames).2
    exact absurd (hplace ▸ List.mem_cons_self) (hempty hp)
  · have hplace : qp = "" :: pp := (List.cons.inj hnames).2
    exact absurd (hplace ▸ List.mem_cons_self) (hempty hq)
  · obtain rfl := (List.cons.inj (List.cons.inj hnames).2).2
    rfl

/-- The place that a path leads to does not depend on how the root of the directory is written. -/
theorem place_resolve_congr {d d' : FullPath} (h : d.place = d'.place) (path : String) :
    (d.resolve path).place = (d'.resolve path).place := by
  have hstart : (d.start path).place = (d'.start path).place := by
    unfold start
    split
    · rfl
    · exact h
  rw [resolve, resolve]
  dsimp only
  rw [hstart]

/-- Of three full paths of one place two are equal. -/
theorem eq_or_eq_or_eq {p q r : FullPath} (hpq : p.place = q.place) (hqr : q.place = r.place) :
    p = q ∨ p = r ∨ q = r := by
  obtain ⟨pd, pp⟩ := p
  obtain ⟨qd, qp⟩ := q
  obtain ⟨rd, rp⟩ := r
  obtain rfl : pp = qp := hpq
  obtain rfl : pp = rp := hqr
  cases pd <;> cases qd <;> cases rd <;> simp

end FullPath

namespace Files

variable (fs : Files)

/-! ### Loading along a chain of files -/

/-- What an inclusion stands for in a document that is read along a chain of files, where `load`
reads another file along the longer chain. -/
def inclusionBy {ε : Type} (load : List FullPath → FullPath → String → Except ε Content)
    (mark : LoadError → ε) (chain : List FullPath) (directory : FullPath) (name : String) :
    Except ε Content :=
  let path := directory.resolve name
  if chain.contains path then .error (mark (.cycle ((chain ++ [path]).map FullPath.text)))
  else
    match fs.text? path with
    | none => .error (mark (.notFound path.text (chain.getLast?.map FullPath.text)))
    | some text => load (chain ++ [path]) path.directory text

section Inclusions

variable {ε : Type} {load : List FullPath → FullPath → String → Except ε Content}
variable {mark : LoadError → ε} {chain : List FullPath} {directory : FullPath} {name : String}

/-- A path of the chain is reported as a cycle. -/
theorem inclusionBy_of_mem (h : directory.resolve name ∈ chain) :
    fs.inclusionBy load mark chain directory name =
      .error (mark (.cycle ((chain ++ [directory.resolve name]).map FullPath.text))) := by
  rw [inclusionBy, if_pos (by simpa using h)]

/-- A path that leads to no file is reported with the path of the document. -/
theorem inclusionBy_of_none (h : directory.resolve name ∉ chain)
    (hnone : fs.text? (directory.resolve name) = none) :
    fs.inclusionBy load mark chain directory name =
      .error (mark (.notFound (directory.resolve name).text
        (chain.getLast?.map FullPath.text))) := by
  rw [inclusionBy, if_neg (by simpa using h), hnone]

/-- Any other file is loaded along the longer chain. -/
theorem inclusionBy_of_some (h : directory.resolve name ∉ chain) {text : String}
    (hsome : fs.text? (directory.resolve name) = some text) :
    fs.inclusionBy load mark chain directory name =
      load (chain ++ [directory.resolve name]) (directory.resolve name).directory text := by
  rw [inclusionBy, if_neg (by simpa using h), hsome]

end Inclusions

/-- A document is read with its inclusions answered for by the loader itself. -/
theorem contentOfText_eq (chain : List FullPath) (directory : FullPath) (text : String) :
    contentOfText fs chain directory text =
      Yaml.readDocument ⟨fs.inclusionBy (contentOfText fs) id chain directory, .faulty⟩ text := by
  rw [contentOfText]
  congr 2
  funext name
  unfold inclusionBy
  dsimp only
  split
  · rfl
  · split
    · rename_i hnone
      rw [hnone]
      rfl
    · rename_i text hsome
      rw [hsome]

/-- A file that is found has a text. -/
theorem exists_text_of_find? {path : String} {main : FullPath} (h : fs.find? path = some main) :
    ∃ text, fs.text? main = some text := by
  unfold find? at h
  dsimp only at h
  split at h
  · split at h
    · rename_i hhas
      obtain rfl := Option.some.inj h
      refine Option.isSome_iff_exists.1 ?_
      rw [text?, Assoc.get?, Option.isSome_map, List.find?_isSome]
      simpa [Assoc.has] using hhas
    · cases h
  · cases h

/-- A file is loaded along the chain that holds it alone. -/
theorem loadFile_eq {path : String} {main : FullPath} {text : String}
    (h : fs.find? path = some main) (htext : fs.text? main = some text) :
    loadFile fs path =
      (contentOfText fs [main] main.directory text).bind (rootOfContent path) := by
  rw [loadFile, h]
  dsimp only
  rw [htext]
  rfl

/-! ### The graph of inclusions -/

/-- The file of a full path includes another full path. -/
def Includes (p q : FullPath) : Prop :=
  ∃ text name, fs.text? p = some text ∧ Yaml.Includes text name ∧ p.directory.resolve name = q

/-- The file at a place includes another place, by one of its full paths. -/
def Leads (a b : Place) : Prop := ∃ p q, p.place = a ∧ q.place = b ∧ fs.Includes p q

/-- A chain of files: from the first one on, each includes the next one, and no full path comes
twice. -/
structure Chain (first : FullPath) (chain : List FullPath) : Prop where
  head : chain.head? = some first
  includes : chain.IsChain fs.Includes
  nodup : chain.Nodup
  isFile : ∀ p ∈ chain, (fs.text? p).isSome

/-- No place that is reached from a place by inclusions is reached from itself again. -/
def AcyclicFrom (a : Place) : Prop :=
  ∀ b, ReflTransGen fs.Leads a b → ¬ TransGen fs.Leads b b

variable {fs : Files} {first p q : FullPath} {chain : List FullPath} {a b : Place}

/-- A file includes the same places whichever of its full paths it is read by. -/
theorem Leads.exists_includes (h : fs.Leads a b) (hp : p.place = a) :
    ∃ q, q.place = b ∧ fs.Includes p q := by
  obtain ⟨p', _, rfl, rfl, text, name, htext, hname, rfl⟩ := h
  have hdirectory : p.directory.place = p'.directory.place := by
    rw [FullPath.directory, FullPath.directory, hp]
  refine ⟨p.directory.resolve name, FullPath.place_resolve_congr hdirectory name,
    text, name, ?_, hname, rfl⟩
  rwa [text?, hp]

/-- So a way from file to file is one along full paths, from any full path of the first file. -/
theorem exists_includes_of_leads (h : TransGen fs.Leads a b) (hp : p.place = a) :
    ∃ q, q.place = b ∧ TransGen fs.Includes p q := by
  induction h with
  | single hab =>
    obtain ⟨q, hq, hpq⟩ := hab.exists_includes hp
    exact ⟨q, hq, .single hpq⟩
  | tail _ hbc ih =>
    obtain ⟨q, hq, hpq⟩ := ih
    obtain ⟨r, hr, hqr⟩ := hbc.exists_includes hq
    exact ⟨r, hr, hpq.tail hqr⟩

/-- A file that reaches itself does so along full paths too, after once more at the latest. -/
theorem exists_cycle_of_leads (h : TransGen fs.Leads a a) (hp : p.place = a) :
    ∃ q, ReflTransGen fs.Includes p q ∧ TransGen fs.Includes q q := by
  obtain ⟨q, hq, hpq⟩ := exists_includes_of_leads h hp
  obtain ⟨r, hr, hqr⟩ := exists_includes_of_leads h hq
  rcases FullPath.eq_or_eq_or_eq (hp.trans hq.symm) (hq.trans hr.symm) with rfl | rfl | rfl
  · exact ⟨p, .refl, hpq⟩
  · exact ⟨p, .refl, hpq.trans hqr⟩
  · exact ⟨q, hpq.to_reflTransGen, hqr⟩

/-- A file includes what one of its full paths includes. -/
theorem Includes.leads (h : fs.Includes p q) : fs.Leads p.place q.place := ⟨p, q, rfl, rfl, h⟩

/-- No cycle of files can be reached from a file if no cycle of full paths can be. -/
theorem acyclicFrom_iff :
    fs.AcyclicFrom p.place ↔
      ∀ q, ReflTransGen fs.Includes p q → ¬ TransGen fs.Includes q q := by
  refine ⟨fun h q hpq hcycle => ?_, fun h b hb hcycle => ?_⟩
  · exact h q.place (hpq.lift FullPath.place fun _ _ => Includes.leads)
      (hcycle.lift FullPath.place fun _ _ => Includes.leads)
  · obtain ⟨q, hq, hpq⟩ : ∃ q, q.place = b ∧ ReflTransGen fs.Includes p q := by
      rcases reflTransGen_iff_eq_or_transGen.1 hb with rfl | hb
      · exact ⟨p, rfl, .refl⟩
      · obtain ⟨q, hq, hpq⟩ := exists_includes_of_leads hb rfl
        exact ⟨q, hq, hpq.to_reflTransGen⟩
    obtain ⟨r, hqr, hr⟩ := exists_cycle_of_leads hcycle hq
    exact h r (hpq.trans hqr) hr

/-- From what a file includes no cycle can be reached either. -/
theorem AcyclicFrom.next (h : fs.AcyclicFrom p.place) (hpq : fs.Includes p q) :
    fs.AcyclicFrom q.place := fun b hb => h b (.head hpq.leads hb)

namespace Chain

/-- A chain is not longer than there are full paths of files. -/
theorem length_le (h : fs.Chain first chain) : chain.length ≤ 2 * fs.texts.length := by
  have hpaths : chain ⊆ fs.paths := by
    intro p hp
    obtain ⟨text, htext⟩ := Option.isSome_iff_exists.1 (h.isFile p hp)
    exact mem_paths_of_text? htext
  have hlength := (h.nodup.subperm hpaths).length_le
  rwa [fs.length_paths] at hlength

/-- The places of a chain are those of files. -/
theorem mem_keys (h : fs.Chain first chain) (hp : p ∈ chain) : p.place ∈ fs.texts.keys := by
  obtain ⟨text, htext⟩ := Option.isSome_iff_exists.1 (h.isFile p hp)
  exact Assoc.mem_keys_of_get? htext

/-- If no path of a chain begins with two slashes, it is not longer than there are files. -/
theorem length_le_of_single (h : fs.Chain first chain) (hsingle : ∀ p ∈ chain, p.doubled = false) :
    chain.length ≤ fs.texts.length := by
  have hinj : ∀ p ∈ chain, ∀ q ∈ chain, p.place = q.place → p = q := by
    rintro ⟨pd, pp⟩ hp ⟨qd, qp⟩ hq rfl
    obtain rfl : pd = false := hsingle _ hp
    obtain rfl : qd = false := hsingle _ hq
    rfl
  have hnodup : (chain.map FullPath.place).Nodup := (List.nodup_map_iff_inj_on h.nodup).2 hinj
  have hkeys : chain.map FullPath.place ⊆ fs.texts.keys :=
    List.forall_mem_map.2 fun _ hp => h.mem_keys hp
  have hlength := (hnodup.subperm hkeys).length_le
  rwa [List.length_map, Assoc.keys, List.length_map] at hlength

/-- The chain that holds a file alone. -/
theorem single (h : (fs.text? p).isSome) : fs.Chain p [p] where
  head := rfl
  includes := List.isChain_singleton p
  nodup := List.nodup_singleton p
  isFile _ hq := List.mem_singleton.1 hq ▸ h

/-- A chain goes on by what its last file includes. -/
theorem concat (h : fs.Chain first (chain ++ [p])) (hpq : fs.Includes p q)
    (hq : q ∉ chain ++ [p]) (hfile : (fs.text? q).isSome) :
    fs.Chain first (chain ++ [p] ++ [q]) where
  head := by
    have hhead := h.head
    cases chain <;> exact hhead
  includes := by
    refine List.isChain_append.2 ⟨h.includes, List.isChain_singleton q, ?_⟩
    simp [hpq]
  nodup := by
    refine List.nodup_append.2 ⟨h.nodup, List.nodup_singleton q, ?_⟩
    rintro r hr s hs rfl
    exact hq (List.mem_singleton.1 hs ▸ hr)
  isFile r hr := by
    rcases List.mem_append.1 hr with hr | hr
    · exact h.isFile r hr
    · exact List.mem_singleton.1 hr ▸ hfile

/-- The files of a chain reach those after them. -/
theorem pairwise (h : fs.Chain first chain) : chain.Pairwise (ReflTransGen fs.Includes) :=
  List.isChain_iff_pairwise.1 (h.includes.imp fun _ _ => ReflTransGen.single)

/-- The paths of a chain are written differently. -/
theorem nodup_texts (h : fs.Chain first chain) (hproper : ∀ a ∈ fs.texts.keys, a.Proper) :
    (chain.map FullPath.text).Nodup :=
  (List.nodup_map_iff_inj_on h.nodup).2 fun _ hp _ hq =>
    FullPath.text_inj (hproper _ (h.mem_keys hp)) (hproper _ (h.mem_keys hq))

/-- The first file of a chain reaches all of them. -/
theorem reaches_of_first (h : fs.Chain first chain) (hp : p ∈ chain) :
    ReflTransGen fs.Includes first p := by
  cases chain with
  | nil => cases hp
  | cons r chain =>
    obtain rfl : r = first := Option.some.inj h.head
    rcases List.mem_cons.1 hp with rfl | hp
    · exact .refl
    · exact (List.pairwise_cons.1 h.pairwise).1 p hp

/-- All files of a chain reach the last one. -/
theorem reaches_last (h : fs.Chain first (chain ++ [p])) (hq : q ∈ chain ++ [p]) :
    ReflTransGen fs.Includes q p := by
  rcases List.mem_append.1 hq with hq | hq
  · exact (List.pairwise_append.1 h.pairwise).2.2 q hq p (List.mem_singleton_self p)
  · obtain rfl := List.mem_singleton.1 hq
    exact .refl

end Chain

section Loading

variable {text : String}

/-- An inclusion that a document asks for leads to a place that its file includes. -/
theorem includes_of_asked {name : String} (htext : fs.text? p = some text)
    (hname : Yaml.Includes text name) : fs.Includes p (p.directory.resolve name) :=
  ⟨text, name, htext, hname, rfl⟩

/-! ### Loaders within one another -/

/-- The recursion of the loader with a bound on how many loaders are opened within one another, and
a check of the chain whenever one is opened. Where the bound or the check stops it, the error is
`none`. -/
def nested (fs : Files) (check : List FullPath → Bool) :
    Nat → List FullPath → FullPath → String → Except (Option LoadError) Content
  | 0, _, _, _ => .error none
  | n + 1, chain, directory, text =>
    if check chain then
      Yaml.readDocument
        ⟨fs.inclusionBy (fs.nested check n) some chain directory, fun f => some (.faulty f)⟩ text
    else .error none

/-- Loads the elements of a file in this way. -/
def loadNested (fs : Files) (check : List FullPath → Bool) (n : Nat) (path : String) :
    Except (Option LoadError) (LinkedTree String) :=
  match fs.find? path with
  | none => .error (some (.notFound path none))
  | some place =>
    (fs.nested check n [place] place.directory ((fs.text? place).getD "")).bind fun c =>
      (rootOfContent path c).mapError some

/-- A bound that no chain is longer than never stops the loader, nor does a check that all chains
pass. -/
theorem nested_eq {check : List FullPath → Bool} {m : Nat}
    (hcheck : ∀ chain, fs.Chain first chain → check chain = true ∧ chain.length ≤ m) {n : Nat}
    (hchain : fs.Chain first (chain ++ [p])) (htext : fs.text? p = some text)
    (hn : m < (chain ++ [p]).length + n) :
    fs.nested check n (chain ++ [p]) p.directory text =
      (contentOfText fs (chain ++ [p]) p.directory text).mapError some := by
  induction n generalizing chain p text with
  | zero =>
    have hlength := (hcheck _ hchain).2
    omega
  | succ n ih =>
    rw [nested, if_pos (hcheck _ hchain).1, contentOfText_eq]
    refine Yaml.readDocument_congr (fun name hname => ?_) fun f => rfl
    by_cases hmem : p.directory.resolve name ∈ chain ++ [p]
    · dsimp only
      rw [fs.inclusionBy_of_mem hmem, fs.inclusionBy_of_mem hmem]
      rfl
    · cases hq : fs.text? (p.directory.resolve name) with
      | none =>
        dsimp only
        rw [fs.inclusionBy_of_none hmem hq, fs.inclusionBy_of_none hmem hq]
        rfl
      | some text' =>
        have hnext := hchain.concat (includes_of_asked htext hname) hmem (by rw [hq]; rfl)
        have hbound : m < (chain ++ [p] ++ [p.directory.resolve name]).length + n := by
          rw [List.length_append, List.length_singleton]
          omega
        dsimp only
        rw [fs.inclusionBy_of_some hmem hq, fs.inclusionBy_of_some hmem hq]
        exact ih hnext hq hbound

/-! ### Where cycles are reported -/

/-- A cycle is reported where the last file of a chain includes one of the chain. -/
theorem exists_chain_of_cycle {paths : List String} (hchain : fs.Chain first (chain ++ [p]))
    (htext : fs.text? p = some text)
    (h : contentOfText fs (chain ++ [p]) p.directory text = .error (.cycle paths)) :
    ∃ chain p q, fs.Chain first (chain ++ [p]) ∧ fs.Includes p q ∧ q ∈ chain ++ [p] ∧
      paths = (chain ++ [p, q]).map FullPath.text := by
  generalize hn : 2 * fs.texts.length - (chain ++ [p]).length = n
  induction n using Nat.strongRecOn generalizing chain p text with
  | _ n ih =>
    rw [contentOfText_eq] at h
    rcases Yaml.fault_or_includes_of_readDocument h with ⟨f, hf⟩ | ⟨name, herror, hname⟩
    · cases hf
    · have hincludes := includes_of_asked htext hname
      dsimp only at herror
      by_cases hmem : p.directory.resolve name ∈ chain ++ [p]
      · rw [fs.inclusionBy_of_mem hmem] at herror
        cases herror
        exact ⟨chain, p, _, hchain, hincludes, hmem, by simp⟩
      · cases hq : fs.text? (p.directory.resolve name) with
        | none =>
          rw [fs.inclusionBy_of_none hmem hq] at herror
          cases herror
        | some text' =>
          rw [fs.inclusionBy_of_some hmem hq] at herror
          have hnext := hchain.concat hincludes hmem (by rw [hq]; rfl)
          refine ih _ ?_ hnext hq herror rfl
          have hlength := hnext.length_le
          rw [List.length_append, List.length_singleton] at hlength ⊢
          omega

/-- The cycle that is reported is one: its files reach themselves. -/
theorem not_acyclicFrom_of_cycle (hchain : fs.Chain first (chain ++ [p])) (hpq : fs.Includes p q)
    (hq : q ∈ chain ++ [p]) : ¬ fs.AcyclicFrom first.place := fun hacyclic =>
  acyclicFrom_iff.1 hacyclic q (hchain.reaches_of_first hq)
    (TransGen.tail' (hchain.reaches_last hq) hpq)

/-! ### Files below which there is no cycle -/

/-- Loading without a look at the files that are being read, with a bound on how many files are
opened within one another. -/
def plain (fs : Files) : Nat → FullPath → String → Except (Option LoadError) Content
  | 0, _, _ => .error none
  | n + 1, path, text =>
    Yaml.readDocument
      ⟨fun name =>
        let inner := path.directory.resolve name
        match fs.text? inner with
        | none => .error (some (.notFound inner.text (some path.text)))
        | some text => fs.plain n inner text,
      fun f => some (.faulty f)⟩ text

/-- A file below which there is no cycle is loaded in this way along every chain. -/
theorem plain_eq {n : Nat} (hchain : fs.Chain first (chain ++ [p]))
    (hacyclic : fs.AcyclicFrom p.place) (htext : fs.text? p = some text)
    (hn : 2 * fs.texts.length < (chain ++ [p]).length + n) :
    fs.plain n p text = (contentOfText fs (chain ++ [p]) p.directory text).mapError some := by
  induction n generalizing chain p text with
  | zero =>
    have hlength := hchain.length_le
    omega
  | succ n ih =>
    rw [plain, contentOfText_eq]
    refine Yaml.readDocument_congr (fun name hname => ?_) fun f => rfl
    have hincludes := includes_of_asked htext hname
    have hnot : p.directory.resolve name ∉ chain ++ [p] := fun hmem =>
      acyclicFrom_iff.1 hacyclic _ (.single hincludes)
        (TransGen.tail' (hchain.reaches_last hmem) hincludes)
    dsimp only
    cases hq : fs.text? (p.directory.resolve name) with
    | none =>
      rw [fs.inclusionBy_of_none hnot hq, List.getLast?_concat]
      rfl
    | some text' =>
      have hnext := hchain.concat hincludes hnot (by rw [hq]; rfl)
      have hbound : 2 * fs.texts.length <
          (chain ++ [p] ++ [p.directory.resolve name]).length + n := by
        rw [List.length_append, List.length_singleton]
        omega
      rw [fs.inclusionBy_of_some hnot hq]
      exact ih hnext (hacyclic.next hincludes) hq hbound

/-- No cycle is reported then. -/
theorem plain_ne_cycle (n : Nat) (p : FullPath) (text : String) (paths : List String) :
    fs.plain n p text ≠ .error (some (.cycle paths)) := by
  induction n generalizing p text with
  | zero =>
    intro h
    cases h
  | succ n ih =>
    intro h
    rw [plain] at h
    rcases Yaml.fault_or_includes_of_readDocument h with ⟨f, hf⟩ | ⟨name, herror, _⟩
    · cases hf
    · dsimp only at herror
      cases hq : fs.text? (p.directory.resolve name) with
      | none =>
        rw [hq] at herror
        cases herror
      | some text' =>
        rw [hq] at herror
        exact ih _ _ herror

/-! ### Files that can be loaded -/

/-- The last file of a chain can be loaded along it. -/
def Loaded (fs : Files) (chain : List FullPath) (p : FullPath) : Prop :=
  ∃ text c, fs.text? p = some text ∧
    contentOfText fs (chain ++ [p]) p.directory text = .ok c

namespace Loaded

/-- What a loaded file includes is not on the chain, and is loaded too. -/
theorem next (h : fs.Loaded chain p) (hpq : fs.Includes p q) :
    q ∉ chain ++ [p] ∧ fs.Loaded (chain ++ [p]) q := by
  obtain ⟨text, c, htext, hloaded⟩ := h
  obtain ⟨text', name, htext', hname, rfl⟩ := hpq
  obtain rfl : text = text' := Option.some.inj (htext.symm.trans htext')
  rw [contentOfText_eq] at hloaded
  obtain ⟨c', hc'⟩ := Yaml.included_eq_ok_of_readDocument hloaded hname
  dsimp only at hc'
  by_cases hmem : p.directory.resolve name ∈ chain ++ [p]
  · rw [fs.inclusionBy_of_mem hmem] at hc'
    cases hc'
  · cases hq : fs.text? (p.directory.resolve name) with
    | none =>
      rw [fs.inclusionBy_of_none hmem hq] at hc'
      cases hc'
    | some text' =>
      rw [fs.inclusionBy_of_some hmem hq] at hc'
      exact ⟨hmem, text', c', hq, hc'⟩

/-- So is every place that is reached from it, along a chain that goes on from this one. -/
theorem reach (h : fs.Loaded chain p) (hpq : ReflTransGen fs.Includes p q) :
    ∃ chain', (∀ r ∈ chain ++ [p], r ∈ chain' ++ [q]) ∧ fs.Loaded chain' q := by
  induction hpq with
  | refl => exact ⟨chain, fun _ hr => hr, h⟩
  | @tail q r _ hqr ih =>
    obtain ⟨chain', hmem, hloaded⟩ := ih
    exact ⟨chain' ++ [q], fun r hr => List.mem_append_left _ (hmem r hr), (hloaded.next hqr).2⟩

/-- No cycle can be reached from it. -/
theorem acyclicFrom (h : fs.Loaded chain p) : fs.AcyclicFrom p.place := by
  refine acyclicFrom_iff.2 fun q hpq hcycle => ?_
  obtain ⟨_, _, hq⟩ := h.reach hpq
  obtain ⟨r, hqr, hrq⟩ := TransGen.tail'_iff.1 hcycle
  obtain ⟨chain', hmem, hr⟩ := hq.reach hqr
  exact (hr.next hrq).1 (hmem q (by simp))

end Loaded

/-! ### Loading a file -/

section Main

variable {path : String} {main : FullPath}

/-- The chain that holds a file alone. -/
theorem chain_of_find? (h : fs.find? path = some main) : fs.Chain main ([] ++ [main]) := by
  obtain ⟨text, htext⟩ := fs.exists_text_of_find? h
  exact Chain.single (by rw [htext]; rfl)

/-- A bound that no chain is longer than never stops the loader of a file. -/
theorem loadNested_eq (h : fs.find? path = some main) {check : List FullPath → Bool} {n : Nat}
    (hcheck : ∀ chain, fs.Chain main chain → check chain = true ∧ chain.length ≤ n) :
    fs.loadNested check n path = (loadFile fs path).mapError some := by
  obtain ⟨text, htext⟩ := fs.exists_text_of_find? h
  have hbound : n < ([] ++ [main]).length + n := by
    rw [List.nil_append, List.length_singleton]
    omega
  have hnested := nested_eq hcheck (chain_of_find? h) htext hbound
  rw [List.nil_append] at hnested
  rw [loadNested, h, fs.loadFile_eq h htext]
  dsimp only
  rw [htext, Option.getD_some, hnested]
  cases contentOfText fs [main] main.directory text <;> rfl

/-- What is wrong with the elements of a document is no cycle of files. -/
theorem rootOfContent_ne_cycle (source : String) (c : Content) (paths : List String) :
    rootOfContent source c ≠ .error (.cycle paths) := by
  unfold rootOfContent
  cases LinkedTree.ofDocument c <;> exact nofun

/-- A cycle that is reported for a file is reported for its content. -/
theorem content_of_loadFile_cycle (h : fs.find? path = some main)
    (htext : fs.text? main = some text) {paths : List String}
    (hcycle : loadFile fs path = .error (.cycle paths)) :
    contentOfText fs ([] ++ [main]) main.directory text = .error (.cycle paths) := by
  rw [fs.loadFile_eq h htext] at hcycle
  rw [List.nil_append]
  cases hcontent : contentOfText fs [main] main.directory text with
  | ok c =>
    rw [hcontent] at hcycle
    exact absurd hcycle (rootOfContent_ne_cycle path c paths)
  | error e =>
    rw [hcontent] at hcycle
    cases hcycle
    rfl

/-- A file whose elements are loaded is loaded along the chain that holds it alone. -/
theorem loaded_of_loadFile (h : fs.find? path = some main) {root : LinkedTree String}
    (hroot : loadFile fs path = .ok root) : fs.Loaded [] main := by
  obtain ⟨text, htext⟩ := fs.exists_text_of_find? h
  rw [fs.loadFile_eq h htext] at hroot
  cases hcontent : contentOfText fs [main] main.directory text with
  | error e =>
    rw [hcontent] at hroot
    cases hroot
  | ok c => exact ⟨text, c, htext, hcontent⟩

end Main
end Loading
end Files

open Files

/-- Loading a file ends: the loader is not stopped by a bound that no chain is longer than, nor by a
check that all chains pass. The chain of files that are being read has no full path twice, so it is
at most twice as long as there are files, and not longer than there are files if no path on it
begins with two slashes. A cycle is reported only where the last file of the chain includes one of
the chain, and it is reported there, with the paths of the chain and of this one. A file that is
included and not on the chain is loaded along the longer one; if there is no cycle below it, it is
loaded along every chain as if nobody looked at the chain, and no cycle is reported. If the main
file can be loaded, no cycle can be reached from it. -/
theorem loadFile_inclusions {fs : Files} {path : String} {main : FullPath}
    (h : fs.find? path = some main) :
    (∀ (check : List FullPath → Bool) (n : Nat),
      (∀ chain, fs.Chain main chain → check chain = true ∧ chain.length ≤ n) →
      fs.loadNested check n path = (loadFile fs path).mapError some) ∧
    (∀ chain, fs.Chain main chain → chain.length ≤ 2 * fs.texts.length ∧
      ((∀ p ∈ chain, p.doubled = false) → chain.length ≤ fs.texts.length) ∧
      ((∀ a ∈ fs.texts.keys, a.Proper) → (chain.map FullPath.text).Nodup)) ∧
    (∀ paths, loadFile fs path = .error (.cycle paths) →
      ∃ chain p q, fs.Chain main (chain ++ [p]) ∧ fs.Includes p q ∧ q ∈ chain ++ [p] ∧
        paths = (chain ++ [p, q]).map FullPath.text ∧ ¬ fs.AcyclicFrom main.place) ∧
    (∀ chain p text, ∃ included : String → Except LoadError Content,
      contentOfText fs (chain ++ [p]) p.directory text =
        Yaml.readDocument ⟨included, .faulty⟩ text ∧
      ∀ name q, p.directory.resolve name = q →
        (q ∈ chain ++ [p] →
          included name = .error (.cycle ((chain ++ [p, q]).map FullPath.text))) ∧
        (∀ text', q ∉ chain ++ [p] → fs.text? q = some text' →
          included name = contentOfText fs (chain ++ [p] ++ [q]) q.directory text')) ∧
    (∀ chain p text, fs.Chain main (chain ++ [p]) → fs.text? p = some text →
      fs.AcyclicFrom p.place →
      (∀ n, 2 * fs.texts.length ≤ n →
        fs.plain n p text =
          (contentOfText fs (chain ++ [p]) p.directory text).mapError some) ∧
      ∀ paths, contentOfText fs (chain ++ [p]) p.directory text ≠ .error (.cycle paths)) ∧
    (∀ root, loadFile fs path = .ok root → fs.AcyclicFrom main.place) := by
  refine ⟨fun check n => loadNested_eq h,
    fun chain hc => ⟨hc.length_le, hc.length_le_of_single, hc.nodup_texts⟩,
    fun paths hcycle => ?_, fun chain p text => ?_, fun chain p text hc htext hacyclic => ⟨?_, ?_⟩,
    fun root hroot => (loaded_of_loadFile h hroot).acyclicFrom⟩
  · obtain ⟨text, htext⟩ := fs.exists_text_of_find? h
    obtain ⟨chain, p, q, hc, hpq, hq, hpaths⟩ :=
      exists_chain_of_cycle (chain_of_find? h) htext (content_of_loadFile_cycle h htext hcycle)
    exact ⟨chain, p, q, hc, hpq, hq, hpaths, not_acyclicFrom_of_cycle hc hpq hq⟩
  · refine ⟨_, fs.contentOfText_eq (chain ++ [p]) p.directory text, ?_⟩
    rintro name _ rfl
    refine ⟨fun hmem => ?_, fun text' hnot hq => fs.inclusionBy_of_some hnot hq⟩
    rw [fs.inclusionBy_of_mem hmem, List.append_assoc]
    rfl
  · intro n hn
    refine plain_eq hc hacyclic htext ?_
    rw [List.length_append, List.length_singleton]
    omega
  · intro paths hcycle
    have hplain := plain_eq (n := 2 * fs.texts.length) hc hacyclic htext (by simp)
    rw [hcycle] at hplain
    exact plain_ne_cycle _ _ _ _ hplain

/-- Two files that both include a third one, and a file that includes the two. -/
private def diamond : Files :=
  ⟨[], [(["a"], "x:\n  y: !include b\n  z: !include c\n"), (["b"], "!include d"),
    (["c"], "!include d"), (["d"], "1")], []⟩

/-- The full path of a file of the diamond. -/
private def corner (name : String) : FullPath := ⟨false, [name]⟩

/-- Reading a document has stopped with the answer for a name. -/
private def stoppedBy (name : String) (r : Except (Option String) Content) : Bool :=
  match r with
  | .error e => e == some name
  | .ok _ => false

/-- The check is for inclusions. -/
private theorem includes_of_stoppedBy {text name : String} (answers : String → Option Content)
    (h : stoppedBy name (Yaml.readDocument (Yaml.naming answers) text) = true) :
    Yaml.Includes text name := by
  refine ⟨answers, ?_⟩
  unfold stoppedBy at h
  split at h
  · rename_i e he
    rw [he, eq_of_beq h]
  · cases h

/-- The two ways from the first file to the last. -/
private theorem chain_diamond {name : String} (hname : name = "b" ∨ name = "c")
    (hleft : diamond.Includes (corner "a") (corner name))
    (hright : diamond.Includes (corner name) (corner "d")) :
    diamond.Chain (corner "a") ([corner "a", corner name] ++ [corner "d"]) where
  head := rfl
  includes := by simpa using And.intro hleft hright
  nodup := by rcases hname with rfl | rfl <;> decide
  isFile := by rcases hname with rfl | rfl <;> decide

/-- A file that is reached along two chains is loaded along both. -/
theorem loadFile_inclusions_diamond :
    diamond.find? "/a" = some (corner "a") ∧ diamond.AcyclicFrom ["a"] ∧
      diamond.Chain (corner "a") [corner "a", corner "b", corner "d"] ∧
      diamond.Chain (corner "a") [corner "a", corner "c", corner "d"] ∧
      contentOfText diamond [corner "a", corner "b", corner "d"] ⟨false, []⟩ "1" =
        contentOfText diamond [corner "a", corner "c", corner "d"] ⟨false, []⟩ "1" := by
  have hmain : diamond.find? "/a" = some (corner "a") := by decide +kernel
  obtain ⟨_, _, _, _, hplain, hloaded⟩ := loadFile_inclusions hmain
  have hacyclic : diamond.AcyclicFrom ["a"] := by
    have hok : (loadFile diamond "/a").toOption.isSome = true := by decide +kernel
    cases hroot : loadFile diamond "/a" with
    | error e =>
      rw [hroot] at hok
      cases hok
    | ok root => exact hloaded root hroot
  have hab : diamond.Includes (corner "a") (corner "b") :=
    ⟨_, "b", rfl, includes_of_stoppedBy (fun _ => none) (by decide +kernel), by decide⟩
  have hac : diamond.Includes (corner "a") (corner "c") :=
    ⟨_, "c", rfl, includes_of_stoppedBy (fun name => if name = "b" then some default else none)
      (by decide +kernel), by decide⟩
  have hbd : diamond.Includes (corner "b") (corner "d") :=
    ⟨_, "d", rfl, includes_of_stoppedBy (fun _ => none) (by decide +kernel), by decide⟩
  have hcd : diamond.Includes (corner "c") (corner "d") :=
    ⟨_, "d", rfl, includes_of_stoppedBy (fun _ => none) (by decide +kernel), by decide⟩
  have hdown : diamond.AcyclicFrom ["d"] := AcyclicFrom.next (AcyclicFrom.next hacyclic hab) hbd
  have hleft := chain_diamond (.inl rfl) hab hbd
  have hright := chain_diamond (.inr rfl) hac hcd
  obtain ⟨hplainLeft, _⟩ := hplain _ _ "1" hleft rfl hdown
  obtain ⟨hplainRight, _⟩ := hplain _ _ "1" hright rfl hdown
  refine ⟨hmain, hacyclic, hleft, hright, ?_⟩
  have hsame :
      (contentOfText diamond [corner "a", corner "b", corner "d"] ⟨false, []⟩ "1").mapError some =
        (contentOfText diamond [corner "a", corner "c", corner "d"] ⟨false, []⟩ "1").mapError
          some :=
    (hplainLeft 8 (Nat.le_refl _)).symm.trans (hplainRight 8 (Nat.le_refl _))
  exact Yaml.mapError_some_inj hsame

/-- A file that includes itself, by a path with two slashes. -/
private def mirror : Files := ⟨[], [(["d", "a"], "x: !include //d/a")], []⟩

/-- Loading has been stopped by its bound. -/
private def isStopped (r : Except (Option LoadError) (LinkedTree String)) : Bool :=
  match r with
  | .error none => true
  | _ => false

/-- Faults of files are not those of an inclusion that nothing answers. -/
private theorem not_isStopped {r : Except LoadError (LinkedTree String)} :
    isStopped (r.mapError some) = false := by
  cases r <;> rfl

/-- As many loaders within one another as there are files are not always enough: `mirror` is one
file, and it is read by both of its full paths. -/
theorem not_forall_loadFile_inclusions :
    ¬ ∀ (fs : Files) (path : String) (main : FullPath), fs.find? path = some main →
      (∀ a ∈ fs.texts.keys, a.Proper) →
      fs.loadNested (fun _ => true) fs.texts.length path = (loadFile fs path).mapError some := by
  intro h
  have hmain : mirror.find? "/d/a" = some ⟨false, ["d", "a"]⟩ := by decide +kernel
  have hproper : ∀ a ∈ mirror.texts.keys, a.Proper := by
    intro a ha
    obtain rfl := List.mem_singleton.1 ha
    exact ⟨by decide, by decide⟩
  have hstopped : isStopped (mirror.loadNested (fun _ => true) 1 "/d/a") = true := by
    decide +kernel
  have hsame := h mirror "/d/a" _ hmain hproper
  change mirror.loadNested _ 1 "/d/a" = _ at hsame
  rw [hsame, not_isStopped] at hstopped
  cases hstopped

end ConfigAssembly
