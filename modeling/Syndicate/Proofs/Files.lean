import Mathlib.Data.List.Forall2
import Syndicate.Files
import Syndicate.Proofs.Act

/-! Two sets of files under the same paths, in which what some files hold may differ. A path leads
to the same in both, but for what a file holds. -/

namespace Syndicate.Files

variable {p : List UInt8 → List UInt8 → Prop} {fs gs : Files} {path : String}

/-- Two files hold the same, or what a relation allows. -/
def Twin (p : List UInt8 → List UInt8 → Prop) (b c : List UInt8) : Prop := c = b ∨ p b c

/-- The same files in two sets, each with twins of the other's bytes. -/
structure Veiled (p : List UInt8 → List UInt8 → Prop) (fs gs : Files) : Prop where
  directories : gs.directories = fs.directories
  files : List.Forall₂ (fun f g => g.1 = f.1 ∧ Twin p f.2 g.2) fs.files gs.files

/-- A path leads to the same in two sets of files, but for the bytes. -/
inductive Found.Veiled (p : List UInt8 → List UInt8 → Prop) : Found → Found → Prop
  | same (found : Found) : Veiled p found found
  | file {b c : List UInt8} (h : p b c) : Veiled p (.file b) (.file c)

theorem Found.Veiled.of_twin {b c : List UInt8} (h : Twin p b c) :
    Found.Veiled p (.file b) (.file c) := by
  rcases h with rfl | h
  · exact .same _
  · exact .file h

theorem Found.Veiled.trouble? {x y : Found} (h : x.Veiled p y) : y.trouble? = x.trouble? := by
  cases h <;> rfl

section Rows

variable {es es' : List (List String × List UInt8)}
  (h : List.Forall₂ (fun f g => g.1 = f.1 ∧ Twin p f.2 g.2) es es')
include h

theorem map_path_of_twin : es'.map Prod.fst = es.map Prod.fst := by
  induction h with
  | nil => rfl
  | cons hpair _ ih => rw [List.map_cons, List.map_cons, hpair.1, ih]

theorem lookup_twin (place : List String) :
    Option.Rel (Twin p) (es.lookup place) (es'.lookup place) := by
  induction h with
  | nil => exact .none
  | @cons f g _ _ hpair _ ih =>
    obtain ⟨place', b⟩ := f
    obtain ⟨place'', c⟩ := g
    obtain ⟨rfl, htwin⟩ : place'' = place' ∧ Twin p b c := hpair
    rw [List.lookup_cons, List.lookup_cons]
    cases place == place'' with
    | true => exact .some htwin
    | false => exact ih

end Rows

namespace Veiled

theorem refl (fs : Files) : Veiled p fs fs :=
  ⟨rfl, List.forall₂_same.2 fun _ _ => ⟨rfl, .inl rfl⟩⟩

variable (h : Veiled p fs gs)
include h

theorem file? (place : List String) :
    Option.Rel (Twin p) (fs.file? place) (gs.file? place) := lookup_twin h.files place

theorem isDirectory (place : List String) : gs.isDirectory place = fs.isDirectory place := by
  have hany : ∀ q : List String → Bool,
      gs.files.any (q ∘ Prod.fst) = fs.files.any (q ∘ Prod.fst) := fun q => by
    rw [← List.any_map, ← List.any_map, map_path_of_twin h.files]
  have hbelow := hany fun place' => place.isPrefixOf place' && place.length < place'.length
  unfold Files.isDirectory
  rw [h.directories]
  exact congrArg (_ || ·) hbelow

theorem walk (dir ns : List String) :
    (fs.walk dir ns).Veiled p (gs.walk dir ns) := by
  induction ns generalizing dir with
  | nil => exact .same _
  | cons name rest ih =>
    unfold Files.walk
    split
    · exact ih dir
    · split
      · exact ih _
      · split
        · exact .same _
        · generalize (if name = root then [root] else dir ++ [name]) = place
          dsimp only
          rw [h.isDirectory]
          have hfile := h.file? place
          cases hf : fs.file? place with
          | none =>
            rw [hf] at hfile
            cases hg : gs.file? place with
            | some c => rw [hg] at hfile; cases hfile
            | none =>
              dsimp only
              split
              · exact ih place
              · exact .same _
          | some b =>
            rw [hf] at hfile
            cases hg : gs.file? place with
            | none => rw [hg] at hfile; cases hfile
            | some c =>
              rw [hg] at hfile
              obtain ⟨htwin⟩ := hfile
              dsimp only
              split
              · exact .of_twin htwin
              · exact .same _

theorem find (path : String) : (fs.find path).Veiled p (gs.find path) := by
  unfold Files.find
  split
  · exact .same _
  · split
    · exact .same _
    · split
      · exact h.walk _ _
      · exact h.walk _ _

theorem findPlace (place : List String) :
    (fs.findPlace place).Veiled p (gs.findPlace place) := by
  unfold Files.findPlace
  split
  · exact .same _
  · exact h.walk _ _

/-- A path is of a plain file in both sets or in none. -/
theorem plain? (path : String) :
    Outcome.Rel (Option.Rel (Twin p)) (fs.plain? path) (gs.plain? path) := by
  unfold Files.plain?
  split
  · exact .ok .none
  · have hfind := h.find (tidy path)
    generalize fs.find (tidy path) = x at hfind ⊢
    generalize gs.find (tidy path) = y at hfind ⊢
    cases hfind with
    | file hp => exact .ok (.some (.inr hp))
    | same =>
      cases x with
      | file b => exact .ok (.some (.inl rfl))
      | tooLong => exact .error _
      | _ => exact .ok .none

end Veiled

end Syndicate.Files
