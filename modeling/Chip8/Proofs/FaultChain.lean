/-
  Chip8.Proofs.FaultChain

  Faults inside faults. Every error is a cause within some number of faults, each of which names
  the place of an instruction (`Error.within`). Three functions go down such a chain: `cause` to
  its end, `source?` by one fault at a time, and `message` through all of it while it writes a
  text for each. They are followed here over chains of any length, by induction on the places of
  the faults, and find the same chain (`Error.chain_to_cause`).
-/
import Chip8.Error
import Chip8.Proofs.Numerals
import Mathlib.Data.List.Forall2

namespace Chip8.Error

/-! ## Chains -/

/-- The place of an instruction that failed. -/
structure Site where
  word : Word
  pc : Word

/-- An error within a fault for each of some places, the outermost first. -/
def within (cause : Error) (sites : List Site) : Error :=
  sites.foldr (fun site inner => .fault site.word site.pc inner) cause

/-- Whether an error is a fault. -/
def IsFault : Error → Prop
  | .fault .. => True
  | _ => False

theorem exists_within (e : Error) : ∃ sites c, ¬ IsFault c ∧ e = c.within sites := by
  induction e with
  | fault word pc inner ih =>
      obtain ⟨sites, c, hc, hinner⟩ := ih
      exact ⟨⟨word, pc⟩ :: sites, c, hc, congrArg (fault word pc) hinner⟩
  | _ => exact ⟨[], _, id, rfl⟩

/-! ## The cause -/

theorem cause_of_not_isFault {c : Error} (h : ¬ c.IsFault) : c.cause = c := by
  cases c with
  | fault => exact absurd trivial h
  | _ => rfl

theorem cause_within (sites : List Site) {c : Error} (h : ¬ c.IsFault) :
    (c.within sites).cause = c := by
  induction sites with
  | nil => exact cause_of_not_isFault h
  | cons site sites ih => exact ih

/-! ## The sources -/

/-- The direct source of a source. An error of the file system rests on nothing else. -/
def Source.source? : Source → Option Source
  | .error inner => inner.source?
  | .file _ => none

/-- What is reached from an error in some steps from source to source. -/
def sourceAfter (e : Error) : Nat → Option Source
  | 0 => some (.error e)
  | steps + 1 => (e.sourceAfter steps).bind Source.source?

/-- Each step leaves one fault behind. -/
theorem sourceAfter_within (c : Error) (sites : List Site) {i : Nat} (h : i ≤ sites.length) :
    (c.within sites).sourceAfter i = some (.error (c.within (sites.drop i))) := by
  induction i with
  | zero => rfl
  | succ i ih =>
      -- there is one more fault to go into, that of place `i`
      have hrest : sites.drop i = sites[i] :: sites.drop (i + 1) := List.drop_eq_getElem_cons h
      rw [sourceAfter, ih (by omega), Option.bind_some, hrest]
      rfl

/-- After as many steps as there are faults the cause is reached. -/
theorem sourceAfter_length (c : Error) (sites : List Site) :
    (c.within sites).sourceAfter sites.length = some (.error c) := by
  rw [sourceAfter_within c sites (Nat.le_refl _), List.drop_length]
  rfl

theorem sourceAfter_length_succ (c : Error) (sites : List Site) :
    (c.within sites).sourceAfter (sites.length + 1) = c.source? := by
  rw [sourceAfter, sourceAfter_length, Option.bind_some]
  rfl

/-- What is neither a fault nor an error of the file system rests on nothing. -/
theorem source?_eq_none {c : Error} (hfault : ¬ c.IsFault) (hfile : ∀ reason, c ≠ .file reason) :
    c.source? = none := by
  cases c with
  | fault => exact absurd trivial hfault
  | file reason => exact absurd rfl (hfile reason)
  | _ => rfl

/-- Where there is nothing more, nothing comes later. -/
theorem sourceAfter_eq_none {e : Error} {steps later : Nat} (h : e.sourceAfter steps = none)
    (hle : steps ≤ later) : e.sourceAfter later = none := by
  induction hle with
  | refl => exact h
  | step _ ih => rw [sourceAfter, ih, Option.bind_none]

/-! ## The message -/

/-- `text` announces a fault at a place: its address in at least three digits, and its word in at
    least four. -/
def Site.IsAnnouncedBy (site : Site) (text : String) : Prop :=
  ∃ pc word, Text.IsHexNumeral 3 site.pc.toNat pc ∧ Text.IsHexNumeral 4 site.word.toNat word ∧
    text = "fault at pc 0x" ++ pc ++ " (opcode 0x" ++ word ++ "): "

/-- The message of a chain announces each of its faults in front of the message of the cause. -/
theorem exists_message_within (c : Error) (sites : List Site) :
    ∃ texts, List.Forall₂ Site.IsAnnouncedBy sites texts ∧
      (c.within sites).message = String.join texts ++ c.message := by
  induction sites with
  | nil => exact ⟨[], .nil, String.empty_append.symm⟩
  | cons site sites ih =>
      obtain ⟨texts, hannounced, hmessage⟩ := ih
      refine ⟨_ :: texts, .cons ⟨_, _, Text.isHexNumeral_hex 3 site.pc.toNat,
        Text.isHexNumeral_hex 4 site.word.toNat, rfl⟩ hannounced, ?_⟩
      rw [String.join_cons, String.append_assoc, ← hmessage]
      rfl

/-! ## The chain -/

/-- Every error is a cause within some faults, and all that is told about it follows this chain.
    The cause is found under any number of faults, and is its own cause. The sources of the error
    are what is inside its first fault, inside its second one and so on down to the cause, after
    which there is the error of the file system, if the cause is one of a file, and else nothing.
    The message announces the faults from the outermost on and ends with the message of the
    cause. -/
theorem chain_to_cause :
    (∀ e : Error, ∃ sites c, ¬ IsFault c ∧ e = c.within sites) ∧
    ∀ (c : Error) (sites : List Site), ¬ c.IsFault →
      let e := c.within sites
      (e.cause = c ∧ c.cause = c) ∧
      (∀ i ≤ sites.length, e.sourceAfter i = some (.error (c.within (sites.drop i)))) ∧
      e.sourceAfter sites.length = some (.error c) ∧
      (∀ reason, c = .file reason → e.sourceAfter (sites.length + 1) = some (.file reason)) ∧
      ((∀ reason, c ≠ .file reason) → ∀ i > sites.length, e.sourceAfter i = none) ∧
      ∃ texts, List.Forall₂ Site.IsAnnouncedBy sites texts ∧
        e.message = String.join texts ++ c.message := by
  refine ⟨exists_within, ?_⟩
  intro c sites hc e
  refine ⟨⟨cause_within sites hc, cause_of_not_isFault hc⟩, ?_, c.sourceAfter_length sites, ?_, ?_,
    c.exists_message_within sites⟩
  · intro i hi
    exact c.sourceAfter_within sites hi
  · intro reason hreason
    have hsource : c.source? = some (.file reason) := congrArg source? hreason
    exact (c.sourceAfter_length_succ sites).trans hsource
  · intro hfile i hi
    have hnone : e.sourceAfter (sites.length + 1) = none :=
      (c.sourceAfter_length_succ sites).trans (source?_eq_none hc hfile)
    exact sourceAfter_eq_none hnone hi

/-- A file that is missing, within two faults: both are announced, and three steps lead from the
    outer one to the error of the file system. -/
theorem chain_to_cause_missingFile :
    let c : Error := .file .missing
    let sites : List Site := [⟨0x00EE, 0x200⟩, ⟨0x2ABC, 0x1FFF⟩]
    ¬ c.IsFault ∧ (c.within sites).cause = c ∧
    (c.within sites).sourceAfter 1 = some (.error (c.within [⟨0x2ABC, 0x1FFF⟩])) ∧
    (c.within sites).sourceAfter 3 = some (.file .missing) ∧
    ∃ texts : List String, texts.length = 2 ∧
      (c.within sites).message = String.join texts ++ c.message := by
  intro c sites
  have hc : ¬ c.IsFault := id
  obtain ⟨⟨hcause, -⟩, hsources, -, hfile, -, texts, hannounced, hmessage⟩ :=
    chain_to_cause.2 c sites hc
  exact ⟨hc, hcause, hsources 1 (by decide), hfile .missing rfl, texts,
    hannounced.length_eq.symm, hmessage⟩

/-- The message of that chain. An address has a fourth digit where it takes one. -/
example :
    (within (.file .missing) [⟨0x00EE, 0x200⟩, ⟨0x2ABC, 0x1FFF⟩]).message =
      "fault at pc 0x200 (opcode 0x00ee): fault at pc 0x1fff (opcode 0x2abc): " ++
        "io error: No such file or directory (os error 2)" := by
  decide

end Chip8.Error
