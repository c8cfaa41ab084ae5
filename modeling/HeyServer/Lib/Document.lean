import HeyServer.Lib.SideBySide

/-!
# Documents edited by loading and saving

A document has fields that belong to its owner, and others. Whoever changes it loads the whole
document and saves the whole document later. The owner's fields are those of the owner's last update
as long as nobody else saves what was loaded before that update.

## Implementation notes

`version` counts the owner's updates and `last` is the latest of them. Neither is kept by a program;
a load tells the version, so that a save can say what it is based on.
-/

namespace HeyServer.Lib

variable {X D F : Type}

/-- How documents `D` with owner's fields `F` are kept as contents `X`. -/
structure Codec (X D F : Type) where
  /-- The document and whether it could be read. -/
  read : X → D × Bool
  /-- What is used when nothing can be read. -/
  fallback : D
  write : D → X
  fields : D → F
  stored : X → Option F

structure Document (X F : Type) where
  content : X
  version : Nat := 0
  last : Option F := none

/-- A loaded document, with the version it is based on if it could be read. -/
structure Loaded (D : Type) where
  doc : D
  basis : Option Nat

inductive DocOp (D F : Type)
  | load (readable : Bool)
  /-- `update` is there if the owner's fields are to be changed. -/
  | save (doc : D) (basis : Option Nat) (update : Option F) (written : Bool)
deriving DecidableEq

def DocOp.Reply : DocOp D F → Type
  | .load _ => Loaded D
  | .save .. => Bool

namespace Document

def load (codec : Codec X D F) (s : Document X F) (readable : Bool) : Loaded D :=
  if readable then ⟨(codec.read s.content).1,
    if (codec.read s.content).2 then some s.version else none⟩
  else ⟨codec.fallback, none⟩

def save (codec : Codec X D F) (s : Document X F) (doc : D) : Option F → Document X F
  | none => { s with content := codec.write doc }
  | some f => ⟨codec.write doc, s.version + 1, some f⟩

end Document

def docSemantics (codec : Codec X D F) : Semantics (Document X F) (DocOp D F) DocOp.Reply where
  exec s
    | .load readable => (s, s.load codec readable)
    | .save doc _ update written => if written then (s.save codec doc update, true) else (s, false)

/-- Only what is based on the current version is saved for others, and the owner only asks for what
can be kept. -/
def docGuard (keepable : F → Bool) (s : Document X F) : DocOp D F → Bool
  | .save _ basis none true => basis = some s.version
  | .save _ _ (some f) true => keepable f
  | _ => true

/-! ## What a call knows -/

section Knowledge
variable (codec : Codec X D F) (valid : F → Prop) (keepable : F → Bool)

/-- The owner's fields are those of the last update. -/
def Current (s : Document X F) : Prop :=
  ∀ f, s.last = some f → valid f ∧ codec.stored s.content = some f

/-- Unless it was overtaken, a loaded document has the owner's fields of the last update. -/
def Fresh (l : Loaded D) (s : Document X F) : Prop :=
  ∀ v, l.basis = some v →
    v ≤ s.version ∧ (v = s.version → ∀ f, s.last = some f → codec.fields l.doc = f)

def DocHolds : Option (Loaded D) → Document X F → Prop
  | none, _ => True
  | some l, s => Fresh codec l s

/-- Others keep the owner's fields as they were loaded, if they are valid. -/
def DocPermits : Option (Loaded D) → DocOp D F → Prop
  | _, .load _ => True
  | some l, .save doc basis none _ =>
    basis = l.basis ∧ (valid (codec.fields l.doc) → codec.fields doc = codec.fields l.doc)
  | _, .save doc _ (some f) _ => keepable f = true → valid f ∧ codec.fields doc = f
  | none, .save _ _ none _ => False

def docNext : Option (Loaded D) → (op : DocOp D F) → op.Reply → Option (Loaded D)
  | _, .load _, (l : Loaded D) => some l
  | g, .save .., _ => g

/-- The laws of a codec: what is written is stored, and valid fields are read as they are stored. -/
structure Codec.Lawful : Prop where
  stored_write : ∀ d, codec.stored (codec.write d) = some (codec.fields d)
  read_stored : ∀ x f, valid f → codec.stored x = some f → codec.fields (codec.read x).1 = f

variable {codec valid keepable} {s : Document X F}

theorem Current.load (hs : Current codec valid s) (laws : codec.Lawful valid) (readable : Bool) :
    Fresh codec (s.load codec readable) s := by
  intro v hv
  cases readable with
  | false => cases hv
  | true =>
    have hbasis : (if (codec.read s.content).2 then some s.version else none) = some v := hv
    split_ifs at hbasis
    cases hbasis
    refine ⟨Nat.le_refl _, fun _ f hf => ?_⟩
    obtain ⟨hvalid, hstored⟩ := hs f hf
    exact laws.read_stored s.content f hvalid hstored

theorem Fresh.save {l : Loaded D} (hl : Fresh codec l s) (doc : D) (update : Option F) :
    Fresh codec l (s.save codec doc update) := by
  intro v hv
  obtain ⟨hle, hfields⟩ := hl v hv
  cases update with
  | none => exact ⟨hle, hfields⟩
  | some f =>
    -- the version has moved on
    refine ⟨Nat.le_succ_of_le hle, fun hnow => ?_⟩
    exact absurd hnow (Nat.ne_of_lt (Nat.lt_succ_of_le hle))

theorem Current.save_other (hs : Current codec valid s) (laws : codec.Lawful valid) {l : Loaded D}
    (hl : Fresh codec l s) (hbasis : l.basis = some s.version) {doc : D}
    (hfields : valid (codec.fields l.doc) → codec.fields doc = codec.fields l.doc) :
    Current codec valid (s.save codec doc none) := by
  intro f hf
  have hvalid : valid f := (hs f hf).1
  have hloaded : codec.fields l.doc = f := (hl s.version hbasis).2 rfl f hf
  refine ⟨hvalid, ?_⟩
  calc codec.stored (codec.write doc)
      = some (codec.fields doc) := laws.stored_write doc
    _ = some (codec.fields l.doc) := by rw [hfields (hloaded ▸ hvalid)]
    _ = some f := by rw [hloaded]

theorem DocHolds.save {g : Option (Loaded D)} (hg : DocHolds codec g s) (doc : D)
    (update : Option F) :
    DocHolds codec g (s.save codec doc update) := by
  cases g with
  | none => trivial
  | some l => exact Fresh.save hg doc update

end Knowledge

/-- The typing of calls that load a document and save it. -/
def docTyping {C V : Type} {codec : Codec X D F} {valid : F → Prop} {keepable : F → Bool}
    (laws : codec.Lawful valid) (program : C → Prog (DocOp D F) DocOp.Reply V)
    (hobeys : ∀ c, (program c).Obeys (DocPermits codec valid keepable) docNext none) :
    Typing (Option (Loaded D)) (⟨docSemantics codec, program⟩ : System _ _ _ C V)
      (docGuard keepable) (Current codec valid) where
  permits := DocPermits codec valid keepable
  next := docNext
  Holds := DocHolds codec
  entry := none
  obeys := hobeys
  known _ _ := trivial
  step g op s hguard hs hg hpermits := by
    cases op with
    | load readable => exact ⟨hs, hs.load laws readable⟩
    | save doc basis update written =>
      cases written with
      | false => exact ⟨hs, hg⟩
      | true =>
        refine ⟨?_, hg.save doc update⟩
        cases update with
        | some f =>
          have hsaved : valid f ∧ codec.fields doc = f := by
            cases g <;> exact hpermits hguard
          intro f' hf'
          cases hf'
          exact ⟨hsaved.1, (laws.stored_write doc).trans (congrArg some hsaved.2)⟩
        | none =>
          cases g with
          | none => exact hpermits.elim
          | some l =>
            have hnow : basis = some s.version := of_decide_eq_true hguard
            exact hs.save_other laws hg (hpermits.1 ▸ hnow) hpermits.2
  other g g' op s hguard hs hg hg' hpermits := by
    cases op with
    | load readable => exact hg
    | save doc basis update written =>
      cases written with
      | false => exact hg
      | true => exact hg.save doc update

end HeyServer.Lib
