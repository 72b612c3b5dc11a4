import IdleEngine.Lib.Outcome
import IdleEngine.Progression.Condition

/-!
# Formulas of the content schema

A formula is a tree: a curve over the level, pieces chosen by the level, or an expression with
references to variables and entities. `FormulaNode.Accepted` is what the schema checks of it.
Evaluating it (`FormulaNode.evaluate`) may throw where a reference has no value, and of an accepted
formula only there: it returns if and only if every reference that the level leaves in has a value
in the context (`FormulaNode.exists_evaluate_iff`).

Arithmetic is that of `JsNumber`; the functions whose values are not rational are a parameter
(`FormulaMath`).
-/

namespace IdleEngine

open Outcome FormulaContext

/-! ### Arithmetic -/

namespace JsNumber

def neg : JsNumber → JsNumber
  | fin a => fin (-a)
  | posInf => negInf
  | negInf => posInf
  | nan => nan

def add : JsNumber → JsNumber → JsNumber
  | fin a, fin b => fin (a + b)
  | nan, _ => nan
  | _, nan => nan
  | posInf, negInf => nan
  | negInf, posInf => nan
  | posInf, _ => posInf
  | _, posInf => posInf
  | negInf, _ => negInf
  | _, negInf => negInf

/-- An infinity with the sign of a number. -/
def infinityOf (sign : ℚ) : JsNumber :=
  if sign = 0 then nan else if 0 < sign then posInf else negInf

/-- The sign of a number that is one. -/
def sign? : JsNumber → Option ℚ
  | fin a => some a
  | posInf => some 1
  | negInf => some (-1)
  | nan => none

def mul : JsNumber → JsNumber → JsNumber
  | fin a, fin b => fin (a * b)
  | a, b => ((sign? a).bind fun x => (sign? b).map fun y => infinityOf (x * y)).getD nan

/-- A quotient by zero is infinite, and one by an infinity is zero. -/
def div : JsNumber → JsNumber → JsNumber
  | fin a, fin b => if b = 0 then infinityOf a else fin (a / b)
  | fin _, posInf => fin 0
  | fin _, negInf => fin 0
  | posInf, fin b => if b < 0 then negInf else posInf
  | negInf, fin b => if b < 0 then posInf else negInf
  | _, _ => nan

/-- `Math.min` of two numbers. -/
def mathMin (a b : JsNumber) : JsNumber :=
  if a = nan ∨ b = nan then nan else if a.le b then a else b

/-- `Math.max` of two numbers. -/
def mathMax (a b : JsNumber) : JsNumber :=
  if a = nan ∨ b = nan then nan else if a.le b then b else a

/-- A function of finite numbers, which leaves the others as they are. -/
def mapFin (f : ℚ → ℚ) : JsNumber → JsNumber
  | fin a => fin (f a)
  | a => a

/-- `Math.abs`. -/
def abs : JsNumber → JsNumber
  | negInf => posInf
  | a => a.mapFin fun q => |q|

end JsNumber

/-- The functions whose values are not rational: `Math.pow`, `Math.sqrt`, `Math.log10`,
`Math.log`. -/
structure FormulaMath where
  pow : JsNumber → JsNumber → JsNumber
  sqrt : JsNumber → JsNumber
  log10 : JsNumber → JsNumber
  ln : JsNumber → JsNumber

/-- Powers with natural exponents; the other functions are not used in examples. -/
def naturalPowers : FormulaMath :=
  { pow := fun base exponent =>
      match base, exponent with
      | .fin b, .fin e => if e.den = 1 ∧ 0 ≤ e then .fin (b ^ e.num.toNat) else .nan
      | _, _ => .nan
    sqrt := fun _ => .nan, log10 := fun _ => .nan, ln := fun _ => .nan }

/-! ### Trees -/

inductive VariableName
  | level
  | time
  | deltaTime
  deriving DecidableEq

inductive EntityReferenceType
  | resource
  | generator
  | upgrade
  | automation
  | prestigeLayer
  deriving DecidableEq

inductive ReferenceTarget
  | variable (name : VariableName)
  | entity (type : EntityReferenceType) (id : String)
  deriving DecidableEq

inductive BinaryOperator
  | add
  | sub
  | mul
  | div
  | pow
  | min
  | max

inductive UnaryOperator
  | abs
  | ceil
  | floor
  | round
  | sqrt
  | log10
  | ln

inductive CallFunction
  | clamp
  | lerp
  | min3
  | max3
  | pow10
  | root

/-- `CALL_FUNCTION_ARITY`. -/
def CallFunction.arity : CallFunction → ℕ
  | clamp => 3
  | lerp => 3
  | min3 => 3
  | max3 => 3
  | pow10 => 1
  | root => 2

inductive ExpressionNode
  | literal (value : ℚ)
  | ref (target : ReferenceTarget)
  | binary (op : BinaryOperator) (left right : ExpressionNode)
  | unary (op : UnaryOperator) (operand : ExpressionNode)
  | call (name : CallFunction) (args : List ExpressionNode)

/-- A formula of the schema; a piece has the level until which it is used. -/
inductive FormulaNode
  | constant (value : ℚ)
  | linear (base slope : ℚ)
  | exponential (base growth : ℚ) (offset : Option ℚ)
  | polynomial (coefficients : List ℚ)
  | piecewise (pieces : List (Option ℚ × FormulaNode))
  | expression (node : ExpressionNode)

/-! ### What the schema accepts -/

namespace ExpressionNode

mutual

/-- `getExpressionDepth`. -/
def depth : ExpressionNode → ℕ
  | .binary _ left right => 1 + max (depth left) (depth right)
  | .unary _ operand => 1 + depth operand
  | .call _ args => 1 + depthEach args
  | _ => 1

def depthEach : List ExpressionNode → ℕ
  | [] => 0
  | arg :: args => max (depth arg) (depthEach args)

end

mutual

/-- `countExpressionNodes`. -/
def count : ExpressionNode → ℕ
  | .binary _ left right => 1 + count left + count right
  | .unary _ operand => 1 + count operand
  | .call _ args => 1 + countEach args
  | _ => 1

def countEach : List ExpressionNode → ℕ
  | [] => 0
  | arg :: args => count arg + countEach args

end

mutual

/-- Every call has as many arguments as its function takes. -/
def Applied : ExpressionNode → Prop
  | .binary _ left right => Applied left ∧ Applied right
  | .unary _ operand => Applied operand
  | .call name args => args.length = name.arity ∧ AppliedEach args
  | _ => True

def AppliedEach : List ExpressionNode → Prop
  | [] => True
  | arg :: args => Applied arg ∧ AppliedEach args

end

/-- `expressionNodeSchema`. -/
structure Accepted (node : ExpressionNode) : Prop where
  applied : node.Applied
  depth : node.depth ≤ 16
  count : node.count ≤ 256

end ExpressionNode

/-- `validatePiecewise`, of the levels of the pieces: they increase, and only the last piece has
none. -/
def ValidPieces : List (Option ℚ) → Prop
  | [] => False
  | [last] => last = none
  | level :: next :: rest => level.isSome ∧ (∀ a ∈ level, ∀ b ∈ next, a < b) ∧
      ValidPieces (next :: rest)

namespace FormulaNode

mutual

/-- `getFormulaDepth`. -/
def depth : FormulaNode → ℕ
  | .piecewise pieces => 1 + depthEach pieces
  | .expression node => node.depth
  | _ => 1

def depthEach : List (Option ℚ × FormulaNode) → ℕ
  | [] => 0
  | piece :: pieces => max (depthPiece piece) (depthEach pieces)

def depthPiece : Option ℚ × FormulaNode → ℕ
  | (_, formula) => depth formula

end

mutual

/-- `countFormulaNodes`. -/
def count : FormulaNode → ℕ
  | .piecewise pieces => 1 + countEach pieces
  | .expression node => 1 + node.count
  | _ => 1

def countEach : List (Option ℚ × FormulaNode) → ℕ
  | [] => 0
  | piece :: pieces => countPiece piece + countEach pieces

def countPiece : Option ℚ × FormulaNode → ℕ
  | (_, formula) => count formula

end

mutual

/-- The checks of the parts of a formula. -/
def WellFormed : FormulaNode → Prop
  | .polynomial coefficients => coefficients ≠ []
  | .piecewise pieces => ValidPieces (pieces.map Prod.fst) ∧ WellFormedEach pieces
  | .expression node => node.Accepted
  | _ => True

def WellFormedEach : List (Option ℚ × FormulaNode) → Prop
  | [] => True
  | piece :: pieces => WellFormedPiece piece ∧ WellFormedEach pieces

def WellFormedPiece : Option ℚ × FormulaNode → Prop
  | (_, formula) => WellFormed formula

end

/-- `numericFormulaSchema`. -/
structure Accepted (formula : FormulaNode) : Prop where
  wellFormed : formula.WellFormed
  depth : formula.depth ≤ 16
  count : formula.count ≤ 256

end FormulaNode

/-! ### Evaluation -/

def VariableName.text : VariableName → String
  | level => "level"
  | time => "time"
  | deltaTime => "deltaTime"

def EntityReferenceType.text : EntityReferenceType → String
  | resource => "resource"
  | generator => "generator"
  | upgrade => "upgrade"
  | automation => "automation"
  | prestigeLayer => "prestigeLayer"

/-- The lookup of a type of entities. -/
def FormulaContext.entity (context : FormulaContext) : EntityReferenceType → String → Option ℚ
  | .resource => context.resource
  | .generator => context.generator
  | .upgrade => context.upgrade
  | .automation => context.automation
  | .prestigeLayer => context.prestigeLayer

/-- The value of a reference. -/
def FormulaContext.lookup (context : FormulaContext) : ReferenceTarget → Option ℚ
  | .variable name => context.variableValue name.text
  | .entity type id => context.entity type id

/-- The text of the error for a reference without a value. -/
def ReferenceTarget.missing : ReferenceTarget → String
  | .variable name => "Missing variable \"" ++ name.text ++ "\" in formula evaluation context."
  | .entity type id => "Missing entity lookup for type \"" ++ type.text ++
      "\" while resolving \"" ++ id ++ "\"."

/-- `resolveReferenceValue`. -/
def resolveReferenceValue (target : ReferenceTarget) (context : FormulaContext) :
    Except String ℚ :=
  (context.lookup target).elim (.error target.missing) .ok

/-- `evaluateBinary`, of the values. -/
def BinaryOperator.apply (math : FormulaMath) (op : BinaryOperator) (left right : JsNumber) :
    JsNumber :=
  match op with
  | .add => left.add right
  | .sub => left.add right.neg
  | .mul => left.mul right
  | .div => left.div right
  | .pow => math.pow left right
  | .min => left.mathMin right
  | .max => left.mathMax right

/-- `evaluateUnary`, of the value. -/
def UnaryOperator.apply (math : FormulaMath) (op : UnaryOperator) (value : JsNumber) : JsNumber :=
  match op with
  | .abs => value.abs
  | .ceil => value.mapFin fun q => ⌈q⌉
  | .floor => value.mapFin fun q => ⌊q⌋
  | .round => value.mapFin fun q => ⌊q + 1 / 2⌋
  | .sqrt => math.sqrt value
  | .log10 => math.log10 value
  | .ln => math.ln value

/-- `evaluateCall`, of the values of the arguments. -/
def CallFunction.apply (math : FormulaMath) (name : CallFunction) (values : List JsNumber) :
    JsNumber :=
  let value (i : ℕ) := values.getD i .nan
  match name with
  | .clamp =>
      ((value 0).mathMax ((value 1).mathMin (value 2))).mathMin ((value 1).mathMax (value 2))
  | .lerp => (value 0).add (((value 1).add (value 0).neg).mul (value 2))
  | .min3 => ((value 0).mathMin (value 1)).mathMin (value 2)
  | .max3 => ((value 0).mathMax (value 1)).mathMax (value 2)
  | .pow10 => math.pow (.fin 10) (value 0)
  | .root => math.pow (value 0) (JsNumber.div (.fin 1) (value 1))

namespace ExpressionNode

variable (math : FormulaMath) (context : FormulaContext)

/-- The text of the error for a call with a wrong number of arguments. -/
def arityMessage (expectedLength received : ℕ) : String :=
  s!"Function expects {expectedLength} arguments, received {received}."

mutual

/-- `evaluateExpressionNode`. -/
def evaluate : ExpressionNode → Except String JsNumber
  | .literal value => .ok (.fin value)
  | .ref target => (resolveReferenceValue target context).map .fin
  | .binary op left right => do
      let leftValue ← evaluate left
      let rightValue ← evaluate right
      return op.apply math leftValue rightValue
  | .unary op operand => (evaluate operand).map (op.apply math)
  | .call name args =>
      if args.length ≠ name.arity then .error (arityMessage name.arity args.length)
      else (evaluateEach args).map (name.apply math)

def evaluateEach : List ExpressionNode → Except String (List JsNumber)
  | [] => .ok []
  | arg :: args => do
      let value ← evaluate arg
      let values ← evaluateEach args
      return value :: values

end

variable (p : ReferenceTarget → Bool)

mutual

/-- All references of an expression meet a test. -/
def allRefs : ExpressionNode → Bool
  | .literal _ => true
  | .ref target => p target
  | .binary _ left right => allRefs left && allRefs right
  | .unary _ operand => allRefs operand
  | .call _ args => allRefsEach args

def allRefsEach : List ExpressionNode → Bool
  | [] => true
  | arg :: args => allRefs arg && allRefsEach args

end

end ExpressionNode

namespace FormulaNode

variable (math : FormulaMath) (context : FormulaContext)

/-- The value of a polynomial, power by power. -/
def polynomialValue (coefficients : List ℚ) (level : ℚ) : JsNumber :=
  coefficients.zipIdx.foldl
    (fun total term => total.add ((JsNumber.fin term.1).mul
      (math.pow (.fin level) (.fin term.2)))) (.fin 0)

mutual

/-- `evaluateNumericFormula`. -/
def evaluate : FormulaNode → Except String JsNumber
  | .constant value => .ok (.fin value)
  | .linear base slope => do
      let level ← resolveReferenceValue (.variable .level) context
      return .fin (base + slope * level)
  | .exponential base growth offset => do
      let level ← resolveReferenceValue (.variable .level) context
      return ((JsNumber.fin base).mul (math.pow (.fin growth) (.fin level))).add
        (.fin (offset.getD 0))
  | .polynomial coefficients => do
      let level ← resolveReferenceValue (.variable .level) context
      return polynomialValue math coefficients level
  | .piecewise pieces => do
      let level ← resolveReferenceValue (.variable .level) context
      evaluatePieces level pieces
  | .expression node => node.evaluate math context

/-- The formula of the piece that `selectPiecewiseSegment` chooses. -/
def evaluatePieces (level : ℚ) : List (Option ℚ × FormulaNode) → Except String JsNumber
  | [] => .error "Cannot read properties of undefined (reading 'formula')"
  | piece :: pieces =>
      if pieces = [] ∨ piece.1.all (level < ·) then evaluatePiece piece
      else evaluatePieces level pieces

def evaluatePiece : Option ℚ × FormulaNode → Except String JsNumber
  | (_, formula) => evaluate formula

end

variable (p : ReferenceTarget → Bool)

mutual

/-- All references of a formula that are left at a level meet a test. -/
def allRefs (level : ℚ) : FormulaNode → Bool
  | .constant _ => true
  | .linear _ _ => p (.variable .level)
  | .exponential _ _ _ => p (.variable .level)
  | .polynomial _ => p (.variable .level)
  | .piecewise pieces => p (.variable .level) && allRefsPieces level pieces
  | .expression node => node.allRefs p

def allRefsPieces (level : ℚ) : List (Option ℚ × FormulaNode) → Bool
  | [] => true
  | piece :: pieces =>
      if pieces = [] ∨ piece.1.all (level < ·) then allRefsPiece level piece
      else allRefsPieces level pieces

def allRefsPiece (level : ℚ) : Option ℚ × FormulaNode → Bool
  | (_, formula) => allRefs level formula

end

end FormulaNode

/-! ### When evaluation returns -/

/-- The reference has a value in the context. -/
def FormulaContext.resolves (context : FormulaContext) (target : ReferenceTarget) : Bool :=
  (context.lookup target).isSome

theorem exists_resolveReferenceValue {target : ReferenceTarget} {context : FormulaContext} :
    (∃ value, resolveReferenceValue target context = .ok value) ↔
      context.resolves target = true := by
  rw [resolveReferenceValue, resolves]
  cases context.lookup target with
  | none => exact iff_of_false (by simp) Bool.false_ne_true
  | some value => exact iff_of_true ⟨value, rfl⟩ rfl

namespace ExpressionNode

variable {math : FormulaMath} {context : FormulaContext}

mutual

/-- **An expression returns** if and only if all its references have values. -/
theorem exists_evaluate_iff : ∀ {node : ExpressionNode}, node.Applied →
    ((∃ value, node.evaluate math context = .ok value) ↔
      node.allRefs context.resolves = true)
  | .literal value, _ => iff_of_true ⟨.fin value, rfl⟩ rfl
  | .ref target, _ => exists_map_ok.trans exists_resolveReferenceValue
  | .binary op left right, happlied => by
    rw [evaluate, exists_bind_ok, allRefs, Bool.and_eq_true,
      ← exists_evaluate_iff happlied.1, ← exists_evaluate_iff happlied.2]
    constructor
    · rintro ⟨leftValue, hleft, hrest⟩
      obtain ⟨rightValue, hright, -⟩ := exists_bind_ok.mp hrest
      exact ⟨⟨leftValue, hleft⟩, rightValue, hright⟩
    · rintro ⟨⟨leftValue, hleft⟩, rightValue, hright⟩
      exact ⟨leftValue, hleft, exists_bind_ok.mpr ⟨rightValue, hright, _, rfl⟩⟩
  | .unary op operand, happlied => exists_map_ok.trans (exists_evaluate_iff happlied)
  | .call name args, happlied => by
    rw [evaluate, if_neg (not_not.mpr happlied.1), allRefs]
    exact exists_map_ok.trans (exists_evaluateEach_iff happlied.2)

theorem exists_evaluateEach_iff : ∀ {args : List ExpressionNode}, AppliedEach args →
    ((∃ values, evaluateEach math context args = .ok values) ↔
      allRefsEach context.resolves args = true)
  | [], _ => iff_of_true ⟨[], rfl⟩ rfl
  | arg :: args, happlied => by
    rw [evaluateEach, exists_bind_ok, allRefsEach, Bool.and_eq_true,
      ← exists_evaluate_iff happlied.1, ← exists_evaluateEach_iff happlied.2]
    constructor
    · rintro ⟨value, hvalue, hrest⟩
      obtain ⟨values, hvalues, -⟩ := exists_bind_ok.mp hrest
      exact ⟨⟨value, hvalue⟩, values, hvalues⟩
    · rintro ⟨⟨value, hvalue⟩, values, hvalues⟩
      exact ⟨value, hvalue, exists_bind_ok.mpr ⟨values, hvalues, _, rfl⟩⟩

end

end ExpressionNode

namespace FormulaNode

variable {math : FormulaMath} {context : FormulaContext}

theorem exists_bind_level {α : Type} {level : ℚ}
    (hlevel : context.lookup (.variable .level) = some level) {f : ℚ → Except String α} :
    (∃ value, (resolveReferenceValue (.variable .level) context >>= f) = .ok value) ↔
      ∃ value, f level = .ok value := by
  have hresolve : resolveReferenceValue (.variable .level) context = .ok level := by
    rw [resolveReferenceValue, hlevel]
    rfl
  rw [hresolve]
  rfl

mutual

/-- **A formula returns** if and only if all references that the level leaves in have values. -/
theorem exists_evaluate_iff {level : ℚ}
    (hlevel : context.lookup (.variable .level) = some level) : ∀ {formula : FormulaNode},
    formula.WellFormed → ((∃ value, formula.evaluate math context = .ok value) ↔
      formula.allRefs context.resolves level = true)
  | .constant value, _ => iff_of_true ⟨.fin value, rfl⟩ rfl
  | .linear base slope, _ => by
    rw [evaluate, exists_bind_level hlevel, allRefs, resolves, hlevel]
    exact iff_of_true ⟨_, rfl⟩ rfl
  | .exponential base growth offset, _ => by
    rw [evaluate, exists_bind_level hlevel, allRefs, resolves, hlevel]
    exact iff_of_true ⟨_, rfl⟩ rfl
  | .polynomial coefficients, _ => by
    rw [evaluate, exists_bind_level hlevel, allRefs, resolves, hlevel]
    exact iff_of_true ⟨_, rfl⟩ rfl
  | .piecewise pieces, hformed => by
    have hhere : context.resolves (.variable .level) = true := by
      rw [resolves, hlevel]
      rfl
    rw [evaluate, exists_bind_level hlevel, allRefs, hhere, Bool.true_and]
    obtain ⟨hpieces, heach⟩ := hformed
    refine exists_evaluatePieces_iff hlevel ?_ heach
    rintro rfl
    exact hpieces
  | .expression node, hformed => ExpressionNode.exists_evaluate_iff hformed.applied

theorem exists_evaluatePieces_iff {level : ℚ}
    (hlevel : context.lookup (.variable .level) = some level) :
    ∀ {pieces : List (Option ℚ × FormulaNode)}, pieces ≠ [] → WellFormedEach pieces →
      ((∃ value, evaluatePieces math context level pieces = .ok value) ↔
        allRefsPieces context.resolves level pieces = true)
  | [], hne, _ => absurd rfl hne
  | piece :: pieces, _, hformed => by
    rw [evaluatePieces, allRefsPieces]
    split
    · exact exists_evaluatePiece_iff hlevel hformed.1
    · next hlast =>
      exact exists_evaluatePieces_iff hlevel (fun hnil => hlast (.inl hnil)) hformed.2

theorem exists_evaluatePiece_iff {level : ℚ}
    (hlevel : context.lookup (.variable .level) = some level) :
    ∀ {piece : Option ℚ × FormulaNode}, WellFormedPiece piece →
      ((∃ value, evaluatePiece math context piece = .ok value) ↔
        allRefsPiece context.resolves level piece = true)
  | (_, _), hformed => exists_evaluate_iff hlevel hformed

end

end FormulaNode

/-! ### Contexts without gaps -/

section Complete

variable {p : ReferenceTarget → Bool}

mutual

theorem ExpressionNode.allRefs_of_forall (hp : ∀ target, p target = true) :
    ∀ node : ExpressionNode, node.allRefs p = true
  | .literal _ => rfl
  | .ref target => hp target
  | .binary _ left right => by
    rw [ExpressionNode.allRefs, allRefs_of_forall hp left, allRefs_of_forall hp right]
    rfl
  | .unary _ operand => allRefs_of_forall hp operand
  | .call _ args => allRefsEach_of_forall hp args

theorem ExpressionNode.allRefsEach_of_forall (hp : ∀ target, p target = true) :
    ∀ args : List ExpressionNode, ExpressionNode.allRefsEach p args = true
  | [] => rfl
  | arg :: args => by
    rw [ExpressionNode.allRefsEach, allRefs_of_forall hp arg, allRefsEach_of_forall hp args]
    rfl

end

mutual

theorem FormulaNode.allRefs_of_forall (hp : ∀ target, p target = true) (level : ℚ) :
    ∀ formula : FormulaNode, formula.allRefs p level = true
  | .constant _ => rfl
  | .linear _ _ => hp _
  | .exponential _ _ _ => hp _
  | .polynomial _ => hp _
  | .piecewise pieces => by
    rw [FormulaNode.allRefs, hp, allRefsPieces_of_forall hp level pieces]
    rfl
  | .expression node => node.allRefs_of_forall hp

theorem FormulaNode.allRefsPieces_of_forall (hp : ∀ target, p target = true) (level : ℚ) :
    ∀ pieces : List (Option ℚ × FormulaNode), FormulaNode.allRefsPieces p level pieces = true
  | [] => rfl
  | piece :: pieces => by
    rw [FormulaNode.allRefsPieces]
    split
    · exact allRefsPiece_of_forall hp level piece
    · exact allRefsPieces_of_forall hp level pieces

theorem FormulaNode.allRefsPiece_of_forall (hp : ∀ target, p target = true) (level : ℚ) :
    ∀ piece : Option ℚ × FormulaNode, FormulaNode.allRefsPiece p level piece = true
  | (_, formula) => allRefs_of_forall hp level formula

end

end Complete

/-- A formula that the content schema accepts. -/
def AcceptedFormula (math : FormulaMath) (formula : NumericFormula) : Prop :=
  ∃ node : FormulaNode, node.Accepted ∧ formula = fun context => node.evaluate math context

/-- A formula of the schema returns where every reference has a value. -/
theorem AcceptedFormula.returns_of_resolves {math : FormulaMath} {formula : NumericFormula}
    (h : AcceptedFormula math formula) {context : FormulaContext} {level : ℚ}
    (hlevel : context.lookup (.variable .level) = some level)
    (hall : ∀ target, context.resolves target = true) : ∃ value, formula context = .ok value := by
  obtain ⟨node, hnode, rfl⟩ := h
  exact (FormulaNode.exists_evaluate_iff hlevel hnode.wellFormed).mpr
    (FormulaNode.allRefs_of_forall hall level node)

end IdleEngine
