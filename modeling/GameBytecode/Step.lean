import GameBytecode.Module
import GameBytecode.Opcode.Table
import GameBytecode.Operation
import GameBytecode.Plan
import GameBytecode.Settings

/-!
The effect of one statement on memory and strings, and where control goes from it. A statement can
change nothing else: calls and returns are handed to the run as requests.
-/
namespace GameBytecode

/-- What happens after a statement. -/
inductive Control where
  | next
  | jump (target : Int)
  | call (function : Word) (argc : Nat)
  | ret (value : UInt16)
deriving DecidableEq, Repr

def Condition.holds (value : Word) : Condition → Bool
  | nonzero => Word.isTrue value
  | zero => !Word.isTrue value
  | notPositive => Word.toSigned value ≤ 0
  | negative => Word.toSigned value < 0
  | notNegative => 0 ≤ Word.toSigned value
  | positive => 0 < Word.toSigned value

/-- The address of a field of an entity, with both in range if bounds are checked. -/
def entityAddress (l : Layout) (bounds : Bool) (entity field : Int) (width : Nat) :
    Except Fault Int :=
  if bounds && !l.hasEntity entity then .error (.invalidEntityAccess entity)
  else if bounds && !l.hasField field width then .error (.invalidFieldAccess field)
  else l.fieldAddress entity field

/-- The time until the next frame of an entity, a tenth of a second. -/
def frameTime : Word := 0x3dcccccd

namespace Step
open GameBytecode.Plan

def jumpTo (settings : Settings) (m : Module) (target : Int) : Plan Control :=
  if settings.boundsCheck && (target < 0 || m.statements.size ≤ target) then
    fail (.invalidJump target)
  else return .jump target

def binding (name : String) : Option Nat → Plan Nat
  | some address => return address
  | none => fail (.missingBinding name)

/-- The effect of an opcode on the operands of a statement at an index. -/
def effect (settings : Settings) (m : Module) (index : Nat) (s : Statement) :
    Opcode → Plan Control
  | .done | .ret => return .ret s.a
  | .arithmetic kind op => do
    let x ← word .a
    let y ← word .b
    putWord .c (← op.eval settings.faultChecks kind x y)
    return .next
  | .complement .float => do
    let x ← word .a
    putWord .c (Single.ofInt (~~~ Single.toInt32 x).toInt)
    return .next
  | .complement _ => do
    let x ← word .a
    putWord .c (~~~ x)
    return .next
  | .dot => do
    let v ← vector .a
    let w ← vector .b
    let p := v.zipWith Single.mul w
    putWord .c (Single.add (Single.add p.x p.y) p.z)
    return .next
  | .scaleByLeft => do
    let x ← word .a
    let v ← vector .b
    putVector .c (v.map (Single.mul · x))
    return .next
  | .scaleByRight => do
    let v ← vector .a
    let x ← word .b
    putVector .c (v.map (Single.mul · x))
    return .next
  | .addVectors => do
    let v ← vector .a
    let w ← vector .b
    putVector .c (v.zipWith Single.add w)
    return .next
  | .subVectors => do
    let v ← vector .a
    let w ← vector .b
    putVector .c (v.zipWith Single.sub w)
    return .next
  | .concat => do
    let r ← reference .a
    let t ← reference .b
    putWord .c (← join r t).toUInt32
    return .next
  | .compare .float op => do
    let x ← word .a
    let y ← word .b
    let holds := op.onFloats x y
    match op with
    | .eq | .ne => putFlag .c holds
    | _ => putWord .c (if holds then Single.one else 0)
    return .next
  | .compare .string op => do
    let r ← reference .a
    let t ← reference .b
    putFlag .c (← test fun strings => (strings.compare r t).map op.holds)
    return .next
  | .compare .unsigned op => do
    let x ← word .a
    let y ← word .b
    putFlag .c (op.onUnsigned x y)
    return .next
  | .compare .integer op | .compare .pointer op => do
    let x ← word .a
    let y ← word .b
    putFlag .c (op.onIntegers x.toInt32 y.toInt32)
    return .next
  | .same .vector equal => do
    let v ← vector .a
    let w ← vector .b
    let e := Single.eq v.x w.x && Single.eq v.y w.y && Single.eq v.z w.z
    putFlag .c (e == equal)
    return .next
  | .same _ equal => do
    let x ← word .a
    let y ← word .b
    putFlag .c ((x == y) == equal)
    return .next
  | .connective kind op => do
    let x ← word .a
    let y ← word .b
    putFlag .c (op.eval (kind.isTrue x) (kind.isTrue y))
    return .next
  | .isEmpty .float => do
    let x ← word .a
    putFlag .c (!Word.isTrue x)
    return .next
  | .isEmpty .vector => do
    let v ← vector .a
    putFlag .c (v.toList.all Single.isZero)
    return .next
  | .isEmpty .string => do
    let r ← reference .a
    putFlag .c (← test (·.isEmpty r))
    return .next
  | .isEmpty _ => do
    let x ← word .a
    putFlag .c (x == 0)
    return .next
  | .integerToFloat => do
    let i ← integer .a
    putWord .c (Single.ofInt i)
    return .next
  | .floatToInteger => do
    let x ← word .a
    putWord .c (Single.toInt32 x).toUInt32
    return .next
  | .integerToUnsigned | .unsignedToInteger => do
    let x ← word .a
    putWord .c x
    return .next
  | .load cell => do
    let entity ← integer .a
    let field ← integer .b
    let address ← entityAddress m.layout settings.boundsCheck entity field cell.width
    copy (.found address) .c cell.width
    return .next
  | .fieldAddress => do
    let entity ← integer .a
    let field ← integer .b
    if settings.boundsCheck && settings.nullBad && entity == 0 then fail .worldAssignment
    let address ← entityAddress m.layout settings.boundsCheck entity field 1
    if address < -0x80000000 ∨ 0x80000000 ≤ address then fail (.invalidGlobal address)
    putWord .c (Word.ofSigned address)
    return .next
  | .store cell => do
    copy .a .b cell.width
    return .next
  | .storeThrough cell => do
    let pointer ← integer .b
    copy .a (.found pointer) cell.width
    return .next
  | .loadAt cell => do
    let pointer ← integer .a
    let offset ← integer .b
    copy (.found (pointer + offset)) .c cell.width
    return .next
  | .loadNear cell => do
    let pointer ← integer .a
    copy (.found (pointer + signedOperand s.b)) .c cell.width
    return .next
  | .storeAt cell => do
    let pointer ← integer .b
    let offset ← integer .c
    copy .a (.found (pointer + offset)) cell.width
    return .next
  | .storeNear cell => do
    let pointer ← integer .b
    copy .a (.found (pointer + signedOperand s.c)) cell.width
    return .next
  | .address _ => do
    putWord .c s.a.toUInt32
    return .next
  | .advance => do
    let pointer ← word .a
    let offset ← word .b
    putWord .c (pointer + offset)
    return .next
  | .advanceNear => do
    let pointer ← word .a
    putWord .c (pointer + Word.ofSigned (signedOperand s.b))
    return .next
  | .branch condition => do
    let x ← word .a
    if condition.holds x then jumpTo settings m (index + signedOperand s.b) else return .next
  | .goto => jumpTo settings m (index + signedOperand s.a)
  | .jump => do
    let target ← word .a
    jumpTo settings m target.toNat
  | .jumpTable => do
    let pointer ← integer .a
    let offset ← integer .b
    let target ← word (.found (pointer + offset))
    jumpTo settings m target.toNat
  | .call argc => do
    let function ← word .a
    return .call function argc
  | .state => do
    let self ← binding "self" m.bindings.self
    let time ← binding "time" m.bindings.time
    let nextThink ← binding "nextthink" m.bindings.nextThink
    let frame ← binding "frame" m.bindings.frame
    let think ← binding "think" m.bindings.think
    let entity ← integer (.bound self)
    let now ← word (.bound time)
    let number ← word .a
    let function ← word .b
    let field (offset : Nat) := entityAddress m.layout settings.boundsCheck entity offset 1
    putWord (.found (← field nextThink)) (Single.add now frameTime)
    putWord (.found (← field frame)) number
    putWord (.found (← field think)) function
    return .next
  | .move => do
    copy .a .c s.b.toNat
    return .next
  | .moveThrough => do
    let count ← word .b
    let source ← integer .a
    let target ← integer .c
    copy (.found source) (.found target) count.toNat
    return .next

end Step

/-- Runs one statement. -/
def step (settings : Settings) (m : Module) (index : Nat) (s : Statement) : Action Control :=
  Plan.run s <| match Opcode.ofCode? s.op with
    | some op => Step.effect settings m index s op
    | none => .fail (.unknownOpcode s.op)

end GameBytecode
