import RouteAtlas.Proofs.Catalogue.WellFormed
import RouteAtlas.Proofs.Syntax.Wrappers
import RouteAtlas.Request.Inference

/-!
# Parts of the request in wrappers

What is read of a part of the request depends on the parent of the expression that stands for it,
and so does whether a value is used as a number. Parentheses and type assertions around the
expression are no such parents. The parent that counts is the first node above them, and what it is
asked is whether the expression, with all its wrappers, is the object, the value or the first
argument that it holds.

## Key results

- `Syntax.Cursor.isSourceOf_iff`, `Inference.observeUse_of_part?`: a part of the request is read by
  the parent that holds it in the place it reads from, and by no other
- `Syntax.Cursor.isUsedAsNumber_of_arguments`: of the arguments of a function, only the first is
  made a number
- `Syntax.Cursor.wrapped_undoes_unwrap`: the way out of wrappers undoes the way in, and ends at the
  node that the parent holds
-/

namespace RouteAtlas

open Syntax

namespace Syntax.Cursor

/-- The child from which a node reads a field, if that child stands for a part of the request. -/
def source? (p : Cursor) : Option Cursor :=
  match p.kind with
  | .memberExpression | .subscriptExpression => p.child? .object
  | .variableDeclarator => p.child? .value
  | _ => none

/-- The node is what a parent of the given kind reads a field from. -/
def isSourceOf (c : Cursor) (kind : Kind) : Bool :=
  match kind with
  | .memberExpression | .subscriptExpression => c.plays .object
  | .variableDeclarator => c.plays .value
  | _ => false

/-- The arguments are those of a function that makes a number of the first. -/
def MakesNumber (arguments : Cursor) : Prop :=
  ∃ call, arguments.parent? = some call ∧
    ∃ callee, call.node.child? .function = some callee ∧ callee.unwrap.isNumericFunction = true

variable {b c p : Cursor}

/-- `isSourceOf` holds of the child that the parent gives as its `source?`. -/
private theorem isSourceOf_iff (h : c.parent? = some p) :
    c.isSourceOf p.kind = true ↔ p.source? = some c := by
  unfold isSourceOf source?
  have hobject := plays_iff h .object
  have hvalue := plays_iff h .value
  -- Three kinds of nodes read fields, two of them from the object and one from the value.
  generalize p.kind = kind
  cases kind
  case memberExpression | subscriptExpression => exact hobject
  case variableDeclarator => exact hvalue
  all_goals simp

/-- `isUsedAsNumber` of an argument: it is the first one of a function that makes a number of it. -/
private theorem isUsedAsNumber_of_arguments (hparent : b.wrapped.parent? = some p)
    (hkind : p.kind = .arguments) :
    b.isUsedAsNumber = true ↔ p.firstContent? = some b.wrapped ∧ p.MakesNumber := by
  unfold isUsedAsNumber MakesNumber
  simp only [hparent, hkind]
  rw [Bool.and_eq_true, isFirstContent_iff hparent]
  cases p.parent? with
  | none => simp
  | some call => simp [Option.any_eq_true]

end Syntax.Cursor

namespace Inference

/-- What a node reads of a part of the request that it holds in the place it reads from. -/
def readBy (o : Observations) (part : Part) (p : Cursor) : Observations :=
  match p.kind with
  | .memberExpression =>
    match p.node.child? .property with
    | some property => o.readAt part property.text p
    | none => o
  | .subscriptExpression =>
    match (p.node.child? .index).bind Node.stringValue? with
    | some key => o.readAt part key p
    | none => o
  | .variableDeclarator =>
    match p.node.child? .name with
    | some name => readDeclared o part name
    | none => o
  | _ => o

/-- `observeUse` of a part of the request reads it if it is, with its wrappers, what the parent
reads from. -/
private theorem observeUse_of_part? {request? : Option String} {o : Observations} {part : Part}
    {b p : Cursor} (hpart : part? request? o b.node = some part)
    (hparent : b.wrapped.parent? = some p) :
    observeUse request? o b = if b.wrapped.isSourceOf p.kind then readBy o part p else o := by
  unfold observeUse readPart readBy Cursor.isSourceOf
  simp only [hpart, hparent]
  -- In each kind of parent the two sides ask the same of it.
  generalize p.kind = kind
  cases kind <;> rfl

end Inference

namespace Syntax.Cursor

open Inference

/-- Let a node have no parent, or one that is no wrapper. The way in by `unwrap` goes from it
through first named children to one that is no wrapper or holds none, and the way out by `wrapped`
from there ends at the node again. So does the way out from any other node inside it with only
wrappers between them. What the parent is asked about such a node by `plays` or `isFirstContent` is
therefore asked about the very child that it holds. `observeUse` reads a part of the request if that
child is what the parent reads from, and not otherwise, and `isUsedAsNumber` holds of an argument if
that child is the first one of a function that makes a number of it. -/
theorem wrapped_undoes_unwrap (w : Cursor)
    (houtermost : ∀ p, w.parent? = some p → p.kind.isTransparent = false) :
    (w.unwrap.node = w.node.unwrap ∧ Relation.ReflTransGen Enters w w.unwrap ∧
      ∀ c, ¬ w.unwrap.Enters c) ∧
    (w.unwrap.wrapped = w ∧ w.unwrap.wrapped.parent? = w.parent?) ∧
    ∀ b : Cursor, b.WrappedIn w →
      (b.wrapped = w ∧ b.wrapped.parent? = w.parent?) ∧
      ∀ p, w.parent? = some p →
        (∀ r, b.wrapped.plays r = true ↔ p.child? r = some w) ∧
        (b.wrapped.isFirstContent = true ↔ p.firstContent? = some w) ∧
        (∀ request? o part, part? request? o b.node = some part →
          (p.source? = some w → observeUse request? o b = readBy o part p) ∧
          (p.source? ≠ some w → observeUse request? o b = o)) ∧
        (p.kind = .arguments →
          (b.isUsedAsNumber = true ↔ p.firstContent? = some w ∧ p.MakesNumber)) := by
  obtain ⟨hin, hend⟩ := unwrap_eq_iff.mp (rfl : w.unwrap = w.unwrap)
  -- A way out that ends at a node which is in no wrapper is the whole way out.
  have hout (b : Cursor) (hb : b.WrappedIn w) : b.wrapped = w := wrapped_eq_iff.mpr ⟨hb, houtermost⟩
  have hback : w.unwrap.wrapped = w := hout w.unwrap (wrappedIn_of_enters hin)
  refine ⟨⟨node_unwrap w, hin, hend⟩, ⟨hback, by rw [hback]⟩, fun b hb => ?_⟩
  -- From here on the node is known only as the end of the way out.
  obtain rfl := hout b hb
  refine ⟨⟨rfl, rfl⟩, fun p hparent => ⟨plays_iff hparent, isFirstContent_iff hparent, ?_, ?_⟩⟩
  · intro request? o part hpart
    have hasked := isSourceOf_iff hparent
    rw [observeUse_of_part? hpart hparent]
    exact ⟨fun hsource => if_pos (hasked.mpr hsource), fun hother => if_neg fun hsource =>
      hother (hasked.mp hsource)⟩
  · exact isUsedAsNumber_of_arguments hparent

end Syntax.Cursor

namespace Syntax

/-- A punctuation mark or keyword. -/
def Node.mark (start : Nat) (text : String) : Node :=
  .mk ⟨.other, false, none, ⟨start, start + text.length, 1⟩, text⟩ []

/-- The wrappers in `(/* all */ req.body as Form)!`, from the inside. -/
def formWrappers : List Frame :=
  [⟨⟨.asExpression, true, none, ⟨11, 27, 1⟩, "req.body as Form"⟩, [],
    [.mark 20 "as", .onLine .other none 23 27 "Form"]⟩,
   ⟨⟨.parenthesizedExpression, true, none, ⟨0, 28, 1⟩, "(/* all */ req.body as Form)"⟩,
    [.onLine .comment none 1 10 "/* all */", .mark 0 "("], [.mark 27 ")"]⟩,
   ⟨⟨.nonNullExpression, true, some .object, ⟨0, 29, 1⟩, "(/* all */ req.body as Form)!"⟩, [],
     [.mark 28 "!"]⟩]

/-- The access `(/* all */ req.body as Form)!.id`, its object left out. -/
def formAccess : Frame :=
  ⟨⟨.memberExpression, true, none, ⟨0, 32, 1⟩, "(/* all */ req.body as Form)!.id"⟩, [],
    [.mark 29 ".", .onLine .propertyIdentifier (some .property) 30 32 "id"]⟩

/-- The body of the request in the access. -/
def formBody : Cursor :=
  ⟨.onLine .memberExpression none 11 19 "req.body"
    [.onLine .identifier (some .object) 11 14 "req", .mark 14 ".",
     .onLine .propertyIdentifier (some .property) 15 19 "body"], formWrappers ++ [formAccess]⟩

/-- The object of the access. -/
def formObject : Cursor := ⟨formWrappers.foldl (fun n f => f.fill n) formBody.node, [formAccess]⟩

/-- The way into `formObject` ends at the comment, the way out from there and from `formBody` at the
object, and the access reads its field of the body. -/
theorem formBody_read :
    (∀ p, formObject.parent? = some p → p.kind.isTransparent = false) ∧
      formBody.WrappedIn formObject ∧
    formObject.unwrap.kind = .comment ∧ formObject.unwrap.wrapped = formObject ∧
      formBody.wrapped = formObject ∧
    Inference.part? (some "req") { aliases := {} } formBody.node = some .body ∧
    (Inference.observeUse (some "req") { aliases := {} } formBody).readings =
      [⟨.body, "id", .string⟩] := by
  have houtermost : ∀ p, formObject.parent? = some p → p.kind.isTransparent = false := by
    intro p hp
    obtain rfl := Option.some.inj hp
    rfl
  -- Three wrappers are between the body and the object, and a comment stands before it in one.
  have hinside : formBody.WrappedIn formObject :=
    .head ⟨rfl, rfl⟩ (.head ⟨rfl, rfl⟩ (.single ⟨rfl, rfl⟩))
  have hpart : Inference.part? (some "req") { aliases := {} } formBody.node = some .body := by
    decide +kernel
  obtain ⟨_, ⟨hback, _⟩, hall⟩ := Cursor.wrapped_undoes_unwrap formObject houtermost
  obtain ⟨⟨hout, _⟩, hheld⟩ := hall formBody hinside
  obtain ⟨_, _, hread, _⟩ := hheld _ rfl
  refine ⟨houtermost, hinside, by decide +kernel, hback, hout, hpart, ?_⟩
  rw [(hread _ _ _ hpart).1 rfl]
  decide +kernel

end Syntax

end RouteAtlas
