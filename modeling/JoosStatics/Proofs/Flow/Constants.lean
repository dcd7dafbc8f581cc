/-
JoosStatics.Proofs.Flow.Constants — constants are what expressions evaluate
to.

§1 evaluates expressions on mathematical integers: results wrap around at 32
bits, division and remainder truncate toward zero, and `&&` and `||` may
leave their right operand out. Whatever is neither a number, a truth value
nor an operator on them is left to a parameter, `others`, so that what is
proved holds for every meaning of names, calls and references.

`Expr.fold?` is compared with evaluation in §2 and with the type checker in
§3. It evaluates both operands of every operator, so it knows of no constant
where an operand that need not be evaluated has none.

* `eval_of_fold?` — a constant is the value, whichever operands are left out.
* `hasType_of_fold?` — a constant of an accepted expression has its type.
* `fold?_agrees` — both, and which accepted operations have no constant (§4).
-/
import JoosStatics.Bodies.Expressions
import JoosStatics.Flow.Constant
import JoosStatics.Proofs.Typing.Denotable

namespace JoosStatics

variable {α : Type}

/-! ## §1 Evaluation -/

/-- The integer of 32 bits, in two's complement, that differs from a number by a multiple of
`2 ^ 32`. -/
def wrap32 (n : Int) : Int := n.bmod (2 ^ 32)

/-- The value of an expression: a number, a truth value, or a reference by its address. -/
inductive Value where
  | int (value : Int)
  | bool (value : Bool)
  | ref (address : Nat)
  deriving DecidableEq, Repr

/-- Why an expression has no value. -/
inductive Fault where
  | divisionByZero
  /-- An operator has no meaning on its operands. -/
  | wrongOperand
  /-- An object is thrown. -/
  | thrown (address : Nat)
  deriving DecidableEq, Repr

/-- Whether `&&` and `||` leave out a right operand that does not matter. -/
inductive Strategy where
  | shortCircuit | eager
  deriving DecidableEq, Repr

/-- The truth value of an operation whose left operand decides it. -/
def Strategy.decided? : Strategy → BinaryOp → Value → Option Bool
  | .shortCircuit, .and, .bool false => some false
  | .shortCircuit, .or, .bool true => some true
  | _, _, _ => none

/-- An operator on numbers. -/
def BinaryOp.onInts (op : BinaryOp) (a b : Int) : Except Fault Value :=
  match op with
  | .add => .ok (.int (wrap32 (a + b)))
  | .sub => .ok (.int (wrap32 (a - b)))
  | .mul => .ok (.int (wrap32 (a * b)))
  | .div => if b = 0 then .error .divisionByZero else .ok (.int (wrap32 (a.tdiv b)))
  | .rem => if b = 0 then .error .divisionByZero else .ok (.int (a.tmod b))
  | .lt => .ok (.bool (decide (a < b)))
  | .le => .ok (.bool (decide (a ≤ b)))
  | .gt => .ok (.bool (decide (b < a)))
  | .ge => .ok (.bool (decide (b ≤ a)))
  | .eq => .ok (.bool (decide (a = b)))
  | .ne => .ok (.bool (decide (a ≠ b)))
  | .and | .or | .bitAnd | .bitOr => .error .wrongOperand

/-- An operator on truth values. -/
def BinaryOp.onBools (op : BinaryOp) (a b : Bool) : Except Fault Value :=
  match op with
  | .and | .bitAnd => .ok (.bool (a && b))
  | .or | .bitOr => .ok (.bool (a || b))
  | .eq => .ok (.bool (decide (a = b)))
  | .ne => .ok (.bool (decide (a ≠ b)))
  | _ => .error .wrongOperand

/-- A unary operator. -/
def UnaryOp.onValue : UnaryOp → Value → Except Fault Value
  | .neg, .int value => .ok (.int (wrap32 (-value)))
  | .not, .bool value => .ok (.bool !value)
  | _, _ => .error .wrongOperand

/-- An operator on two values, or what stands for it on other values than two numbers or
two truth values. -/
def BinaryOp.onValues (op : BinaryOp) (otherwise : Except Fault Value) :
    Value → Value → Except Fault Value
  | .int a, .int b => op.onInts a b
  | .bool a, .bool b => op.onBools a b
  | _, _ => otherwise

/-- Evaluates an expression from left to right. What the operators on numbers and truth
values do not say is left to `others`. -/
def Expr.eval (strategy : Strategy) (others : Expr α → Except Fault Value) :
    Expr α → Except Fault Value
  | .literal _ (.int value) => .ok (.int value.toInt)
  | .literal _ (.bool value) => .ok (.bool value)
  | .literal _ (.char value) => .ok (.int value.toNat)
  | .unary _ op operand => do op.onValue (← operand.eval strategy others)
  | .binary note op lhs rhs => do
    let a ← lhs.eval strategy others
    match strategy.decided? op a with
    | some result => return .bool result
    | none => op.onValues (others (.binary note op lhs rhs)) a (← rhs.eval strategy others)
  | e => others e
termination_by structural e => e

/-- The value that a constant stands for. -/
def Constant.value : Constant → Value
  | .int value => .int value.toInt
  | .bool value => .bool value

/-! ## §2 Constants are values -/

/-- The code of a character fits into 31 bits. -/
theorem toInt_charCode (value : Char) : value.val.toInt32.toInt = value.toNat := by
  have hbound : value.toNat < 2 ^ 31 := by
    have hvalid := value.valid
    simp only [UInt32.isValidChar, Nat.isValidChar] at hvalid
    show value.val.toNat < 2 ^ 31
    omega
  show (value.val.toBitVec).toInt = value.toNat
  rw [BitVec.toInt_eq_toNat_of_lt]
  · rfl
  · show 2 * value.toNat < 2 ^ 32
    omega

theorem Constant.onValue_of_unary? {op : UnaryOp} {a c : Constant} (h : unary? op a = some c) :
    op.onValue a.value = .ok c.value := by
  cases op <;> cases a <;> simp only [unary?, Option.some.injEq, reduceCtorEq] at h
  · subst h
    simp [UnaryOp.onValue, value, wrap32, Int32.toInt_neg]
  · subst h
    rfl

theorem Constant.onInts_of_onInts? {op : BinaryOp} {a b : Int32} {c : Constant}
    (h : onInts? op a b = some c) : op.onInts a.toInt b.toInt = .ok c.value := by
  have hzero : b.toInt = 0 ↔ b = 0 := by
    rw [← Int32.toInt_zero, Int32.toInt_inj]
  cases op with
  | div | rem =>
    simp only [onInts?] at h
    split at h
    · cases h
    · rename_i hb
      cases h
      simp [BinaryOp.onInts, value, wrap32, hzero, hb, Int32.toInt_div, Int32.toInt_mod]
  | and | or | bitAnd | bitOr => cases h
  | add | sub | mul =>
    cases h
    simp [BinaryOp.onInts, value, wrap32, Int32.toInt_add, Int32.toInt_sub, Int32.toInt_mul]
  | lt | le | gt | ge =>
    cases h
    simp [BinaryOp.onInts, value, Int32.lt_iff_toInt_lt, Int32.le_iff_toInt_le]
  | eq | ne =>
    cases h
    simp [BinaryOp.onInts, value, Int32.toInt_inj, Bool.beq_eq_decide_eq, bne]

theorem Constant.onBools_of_onBools? {op : BinaryOp} {a b : Bool} {c : Constant}
    (h : onBools? op a b = some c) : op.onBools a b = .ok c.value := by
  cases op <;> cases h <;> simp [BinaryOp.onBools, value, bne, Bool.beq_eq_decide_eq]

theorem Constant.onValues_of_binary? {op : BinaryOp} {a b c : Constant}
    (h : binary? op a b = some c) (otherwise : Except Fault Value) :
    op.onValues otherwise a.value b.value = .ok c.value := by
  cases a <;> cases b
  · exact onInts_of_onInts? h
  · cases h
  · cases h
  · exact onBools_of_onBools? h

/-- A left operand that decides an operation does so as both operands would. -/
theorem Constant.eq_of_decided? {strategy : Strategy} {op : BinaryOp} {a b c : Constant}
    {result : Bool} (hdecided : strategy.decided? op a.value = some result)
    (h : binary? op a b = some c) : c = .bool result := by
  unfold Strategy.decided? at hdecided
  split at hdecided
  · rename_i hleft
    cases a <;> cases b <;> simp_all [value, binary?, onBools?]
  · rename_i hleft
    cases a <;> cases b <;> simp_all [value, binary?, onBools?]
  · cases hdecided

/-- Evaluation comes to the constant of an expression, whether or not it leaves operands
out. -/
theorem eval_of_fold? (strategy : Strategy) (others : Expr α → Except Fault Value) {e : Expr α}
    {c : Constant} (h : e.fold? = some c) : e.eval strategy others = .ok c.value := by
  match e with
  | .literal _ value =>
    cases value <;> cases h
    · rfl
    · rfl
    · simp only [Expr.eval, Constant.value, toInt_charCode]
  | .unary _ op operand =>
    obtain ⟨a, ha, hop⟩ := Option.bind_eq_some_iff.mp h
    unfold Expr.eval
    rw [eval_of_fold? strategy others ha]
    exact Constant.onValue_of_unary? hop
  | .binary _ op lhs rhs =>
    obtain ⟨a, ha, h⟩ := Option.bind_eq_some_iff.mp h
    obtain ⟨b, hb, hop⟩ := Option.bind_eq_some_iff.mp h
    unfold Expr.eval
    rw [eval_of_fold? strategy others ha, eval_of_fold? strategy others hb]
    cases hdecided : strategy.decided? op a.value with
    | some result =>
      simp only [bind, Except.bind, hdecided]
      rw [Constant.eq_of_decided? hdecided hop]
      rfl
    | none =>
      simp only [bind, Except.bind, hdecided]
      exact Constant.onValues_of_binary? hop _
termination_by structural e

/-! ## §3 Constants have types -/

/-- Numbers have numeric types, and truth values the type `boolean`. -/
inductive Constant.HasType : Constant → Ty → Prop where
  | int (value : Int32) {p : Primitive} (h : p.isNumeric = true) :
      Constant.HasType (.int value) (.primitive p)
  | bool (value : Bool) : Constant.HasType (.bool value) .boolean

/-- The type of a constant tells its kind. -/
theorem Constant.HasType.kind {c : Constant} {type : Ty} (h : c.HasType type) :
    ((∃ value, c = .bool value) ↔ type.isBoolean = true) ∧
    ((∃ value, c = .int value) ↔ type.isNumeric = true) := by
  cases h with
  | @int value p h =>
    refine ⟨?_, fun _ => h, fun _ => ⟨value, rfl⟩⟩
    constructor
    · intro hbool
      obtain ⟨_, hbool⟩ := hbool
      cases hbool
    · intro hboolean
      cases p <;> cases h <;> cases hboolean
  | bool value =>
    refine ⟨⟨fun _ => rfl, fun _ => ⟨value, rfl⟩⟩, ?_⟩
    constructor
    · intro hint
      obtain ⟨_, hint⟩ := hint
      cases hint
    · intro hnumeric
      cases hnumeric

namespace BodyContext

variable {ctx : BodyContext} {scope : Scope} {range : Span} {a b c : Constant}
  {found lhsType rhsType type : Ty}

theorem literalType_hasType {value : Literal} (h : Constant.ofLiteral? value = some c) :
    c.HasType (ctx.literalType value) := by
  cases value <;> cases h
  · exact .int _ rfl
  · exact .bool _
  · exact .int _ rfl

/-- An operator that accepts the type of a constant applies to the constant. -/
theorem exists_unary? {op : UnaryOp} (ha : a.HasType found)
    (htype : ctx.unaryType op found range = .ok type) :
    ∃ c, Constant.unary? op a = some c ∧ c.HasType type := by
  cases op with
  | neg =>
    obtain ⟨_, hnumeric, heq⟩ := bind_eq_ok.mp htype
    cases heq
    cases ha with
    | int value => exact ⟨_, rfl, .int _ rfl⟩
    | bool value => cases requireNumeric_eq_ok.mp hnumeric
  | not =>
    obtain ⟨_, hassign, heq⟩ := bind_eq_ok.mp htype
    cases heq
    cases ha with
    | @int value p h =>
      have hwidens : p.widensTo .boolean = true :=
        TypeTable.isAssignable_primitive ▸ requireAssignable_eq_ok.mp hassign
      cases p <;> cases h <;> cases hwidens
    | bool value => exact ⟨_, rfl, .bool _⟩

/-- Operators that accept numbers apply to them, unless they divide by zero. -/
theorem exists_onInts? {op : BinaryOp} {p q : Primitive} (hp : p.isNumeric = true)
    (hq : q.isNumeric = true)
    (htype : ctx.binaryResult? op (.primitive p) (.primitive q) = some type) (x y : Int32) :
    (∃ c, Constant.onInts? op x y = some c ∧ c.HasType type) ∨
    (Constant.onInts? op x y = none ∧ (op = .div ∨ op = .rem) ∧ y = 0) := by
  cases op with
  | div | rem =>
    simp only [binaryResult?, Ty.isNumeric, hp, hq] at htype
    cases htype
    by_cases hy : y = 0
    · exact .inr ⟨if_pos hy, by simp, hy⟩
    · exact .inl ⟨_, if_neg hy, .int _ rfl⟩
  | add | sub | mul =>
    simp [binaryResult?, Ty.isNumeric, hp, hq] at htype
    subst htype
    exact .inl ⟨_, rfl, .int _ rfl⟩
  | lt | le | gt | ge | eq | ne =>
    simp [binaryResult?, areComparable, Ty.isNumeric, hp, hq] at htype
    subst htype
    exact .inl ⟨_, rfl, .bool _⟩
  | and | or | bitAnd | bitOr =>
    cases p <;> cases hp <;> cases htype

/-- Operators that accept truth values apply to them. -/
theorem exists_onBools? {op : BinaryOp}
    (htype : ctx.binaryResult? op .boolean .boolean = some type) (x y : Bool) :
    ∃ c, Constant.onBools? op x y = some c ∧ c.HasType type := by
  cases op <;> cases htype <;> exact ⟨_, rfl, .bool _⟩

/-- No operator accepts a number and a truth value. -/
theorem binaryResult?_mixed {op : BinaryOp} {p : Primitive} (hp : p.isNumeric = true) :
    ctx.binaryResult? op (.primitive p) .boolean = none ∧
      ctx.binaryResult? op .boolean (.primitive p) = none := by
  cases p <;> cases hp <;> cases op <;> exact ⟨rfl, rfl⟩

/-- An operator that accepts the types of two constants applies to them, unless it divides
by zero. -/
theorem exists_binary? {op : BinaryOp} (ha : a.HasType lhsType) (hb : b.HasType rhsType)
    (htype : ctx.binaryType op lhsType rhsType range = .ok type) :
    (∃ c, Constant.binary? op a b = some c ∧ c.HasType type) ∨
    (Constant.binary? op a b = none ∧ (op = .div ∨ op = .rem) ∧ b = .int 0) := by
  rw [binaryType_eq_ok] at htype
  cases ha with
  | int x hp =>
    cases hb with
    | int y hq =>
      rcases exists_onInts? hp hq htype x y with h | ⟨hnone, hop, rfl⟩
      · exact .inl h
      · exact .inr ⟨hnone, hop, rfl⟩
    | bool y => simp [(binaryResult?_mixed hp).1] at htype
  | bool x =>
    cases hb with
    | int y hq => simp [(binaryResult?_mixed hq).2] at htype
    | bool y => exact .inl (exists_onBools? htype x y)

end BodyContext

section Runs

variable {ctx : BodyContext} {scope : Scope} {mark : Mark} {st st' : CheckState} {type : Ty}

theorem inferExpr_unary_eq_ok {op : UnaryOp} {operand : Expr Mark}
    (h : inferExpr ctx scope (.unary mark op operand) st = (.ok type, st')) :
    ∃ found st₁, inferExpr ctx scope operand st = (.ok found, st₁) ∧
      ctx.unaryType op found mark.range = .ok type := by
  unfold inferExpr at h
  obtain ⟨found, st₁, hoperand, h⟩ := run_bind_eq_ok.mp h
  obtain ⟨result, st₂, htype, h⟩ := run_bind_eq_ok.mp h
  cases h
  exact ⟨found, st₁, hoperand, congrArg Prod.fst htype⟩

theorem inferExpr_binary_eq_ok {op : BinaryOp} {lhs rhs : Expr Mark}
    (h : inferExpr ctx scope (.binary mark op lhs rhs) st = (.ok type, st')) :
    ∃ lhsType rhsType st₁ st₂, inferExpr ctx scope lhs st = (.ok lhsType, st₁) ∧
      inferExpr ctx scope rhs st₁ = (.ok rhsType, st₂) ∧
      ctx.binaryType op lhsType rhsType mark.range = .ok type := by
  unfold inferExpr at h
  obtain ⟨lhsType, st₁, hlhs, h⟩ := run_bind_eq_ok.mp h
  obtain ⟨rhsType, st₂, hrhs, h⟩ := run_bind_eq_ok.mp h
  obtain ⟨result, st₃, htype, h⟩ := run_bind_eq_ok.mp h
  cases h
  exact ⟨lhsType, rhsType, st₁, st₂, hlhs, hrhs, congrArg Prod.fst htype⟩

end Runs

/-- The constant of an accepted expression has its type. -/
theorem hasType_of_fold? {ctx : BodyContext} {scope : Scope} {e : Expr Mark} {c : Constant}
    (h : e.fold? = some c) {st st' : CheckState} {type : Ty}
    (hrun : inferExpr ctx scope e st = (.ok type, st')) : c.HasType type := by
  match e with
  | .literal _ value =>
    cases hrun
    exact BodyContext.literalType_hasType h
  | .unary _ op operand =>
    obtain ⟨a, ha, hop⟩ := Option.bind_eq_some_iff.mp h
    obtain ⟨found, st₁, hoperand, htype⟩ := inferExpr_unary_eq_ok hrun
    obtain ⟨result, hresult, htyped⟩ :=
      BodyContext.exists_unary? (hasType_of_fold? ha hoperand) htype
    rw [hop] at hresult
    cases hresult
    exact htyped
  | .binary _ op lhs rhs =>
    obtain ⟨a, ha, h⟩ := Option.bind_eq_some_iff.mp h
    obtain ⟨b, hb, hop⟩ := Option.bind_eq_some_iff.mp h
    obtain ⟨lhsType, rhsType, st₁, st₂, hlhs, hrhs, htype⟩ := inferExpr_binary_eq_ok hrun
    rcases BodyContext.exists_binary? (hasType_of_fold? ha hlhs) (hasType_of_fold? hb hrhs) htype
      with ⟨result, hresult, htyped⟩ | ⟨hnone, -⟩
    · rw [hop] at hresult
      cases hresult
      exact htyped
    · rw [hop] at hnone
      cases hnone
termination_by structural e

/-! ## §4 Operations without a constant -/

/-- Whether an expression is made of numbers, truth values and operators only. -/
def Expr.isOperation : Expr α → Bool
  | .literal _ (.int _) | .literal _ (.bool _) | .literal _ (.char _) => true
  | .unary _ _ operand => operand.isOperation
  | .binary _ _ lhs rhs => lhs.isOperation && rhs.isOperation
  | _ => false
termination_by structural e => e

/-- Some division or remainder inside an expression has a divisor that is zero when all
operands are evaluated. -/
def Expr.HasZeroDivisor (others : Expr α → Except Fault Value) (e : Expr α) : Prop :=
  ∃ note op lhs rhs, .binary note op lhs rhs ∈ e.parts ∧ (op = .div ∨ op = .rem) ∧
    rhs.eval .eager others = .ok (.int 0)

theorem Expr.HasZeroDivisor.of_child {others : Expr α → Except Fault Value} {e child : Expr α}
    (h : child.HasZeroDivisor others) (hchild : child ∈ e.children) :
    e.HasZeroDivisor others := by
  obtain ⟨note, op, lhs, rhs, hpart, hop, hzero⟩ := h
  refine ⟨note, op, lhs, rhs, ?_, hop, hzero⟩
  rw [Expr.parts_eq]
  exact List.mem_cons_of_mem _ (List.mem_flatMap.mpr ⟨child, hchild, hpart⟩)

/-- Everything inside a constant expression is constant. -/
theorem exists_fold?_of_part {e : Expr α} {c : Constant} (h : e.fold? = some c) {part : Expr α}
    (hpart : part ∈ e.parts) : ∃ c, part.fold? = some c := by
  induction e using Expr.induction generalizing c with
  | h e ih =>
    rw [Expr.parts_eq] at hpart
    rcases List.mem_cons.mp hpart with rfl | hpart
    · exact ⟨c, h⟩
    · obtain ⟨child, hchild, hpart⟩ := List.mem_flatMap.mp hpart
      have hfold : ∃ c, child.fold? = some c := by
        cases e with
        | unary note op operand =>
          obtain rfl := List.mem_singleton.mp hchild
          obtain ⟨a, ha, -⟩ := Option.bind_eq_some_iff.mp h
          exact ⟨a, ha⟩
        | binary note op lhs rhs =>
          obtain ⟨a, ha, h⟩ := Option.bind_eq_some_iff.mp h
          obtain ⟨b, hb, -⟩ := Option.bind_eq_some_iff.mp h
          rcases List.mem_pair.mp hchild with rfl | rfl
          · exact ⟨a, ha⟩
          · exact ⟨b, hb⟩
        | literal => cases hchild
        | _ => cases h
      obtain ⟨c', hc'⟩ := hfold
      exact ih child hchild hc' hpart

/-- An expression with a zero divisor is not constant. -/
theorem Expr.HasZeroDivisor.fold?_eq_none {others : Expr α → Except Fault Value} {e : Expr α}
    (h : e.HasZeroDivisor others) : e.fold? = none := by
  obtain ⟨note, op, lhs, rhs, hpart, hop, hzero⟩ := h
  by_contra hne
  obtain ⟨c, hc⟩ := Option.ne_none_iff_exists'.mp hne
  obtain ⟨c', hdivision⟩ := exists_fold?_of_part hc hpart
  obtain ⟨a, -, hdivision⟩ := Option.bind_eq_some_iff.mp hdivision
  obtain ⟨b, hb, hdivision⟩ := Option.bind_eq_some_iff.mp hdivision
  -- the divisor is constant, and its constant is what it evaluates to
  have hvalue : b.value = .int 0 :=
    Except.ok.inj ((eval_of_fold? .eager others hb).symm.trans hzero)
  cases b with
  | bool value => cases hvalue
  | int value =>
    have hvalue := Value.int.inj hvalue
    rw [← Int32.toInt_zero, Int32.toInt_inj] at hvalue
    subst hvalue
    cases a with
    | bool value => cases hdivision
    | int value => rcases hop with rfl | rfl <;> cases hdivision

/-- An accepted operation that is not constant has a zero divisor. -/
theorem hasZeroDivisor_of_fold?_eq_none (others : Expr Mark → Except Fault Value)
    {ctx : BodyContext} {scope : Scope} {e : Expr Mark} (he : e.isOperation = true)
    {st st' : CheckState} {type : Ty} (hrun : inferExpr ctx scope e st = (.ok type, st'))
    (h : e.fold? = none) : e.HasZeroDivisor others := by
  match e with
  | .literal _ value =>
    cases value with
    | string | null => cases he
    | _ => cases h
  | .unary _ op operand =>
    obtain ⟨found, st₁, hoperand, htype⟩ := inferExpr_unary_eq_ok hrun
    have he : operand.isOperation = true := he
    cases ha : operand.fold? with
    | none =>
      exact (hasZeroDivisor_of_fold?_eq_none others he hoperand ha).of_child
        (List.mem_singleton_self _)
    | some a =>
      obtain ⟨c, hc, -⟩ := BodyContext.exists_unary? (hasType_of_fold? ha hoperand) htype
      simp [Expr.fold?, ha, hc] at h
  | .binary _ op lhs rhs =>
    obtain ⟨lhsType, rhsType, st₁, st₂, hlhs, hrhs, htype⟩ := inferExpr_binary_eq_ok hrun
    obtain ⟨helhs, herhs⟩ := Bool.and_eq_true .. ▸ he
    cases ha : lhs.fold? with
    | none =>
      exact (hasZeroDivisor_of_fold?_eq_none others helhs hlhs ha).of_child
        (List.mem_cons_self ..)
    | some a =>
      cases hb : rhs.fold? with
      | none =>
        exact (hasZeroDivisor_of_fold?_eq_none others herhs hrhs hb).of_child
          (List.mem_cons_of_mem _ (List.mem_singleton_self _))
      | some b =>
        rcases BodyContext.exists_binary? (hasType_of_fold? ha hlhs) (hasType_of_fold? hb hrhs)
          htype with ⟨c, hc, -⟩ | ⟨-, hop, rfl⟩
        · simp [Expr.fold?, ha, hb, hc] at h
        · exact ⟨_, op, lhs, rhs, Expr.self_mem_parts _, hop, eval_of_fold? .eager others hb⟩
termination_by structural e

/-- The constant of an expression is what it evaluates to, and is of the kind that its type
tells if it is accepted. An accepted expression of numbers, truth values and operators has
no constant exactly when it has a zero divisor. -/
theorem fold?_agrees (e : Expr Mark) (others : Expr Mark → Except Fault Value)
    (ctx : BodyContext) (scope : Scope) :
    (∀ c, e.fold? = some c → e.eval .shortCircuit others = .ok c.value) ∧
    (∀ c, e.fold? = some c → ∀ st type, (inferExpr ctx scope e st).1 = .ok type →
      ((∃ value, c = .bool value) ↔ type.isBoolean = true) ∧
      ((∃ value, c = .int value) ↔ type.isNumeric = true)) ∧
    (e.isOperation = true → ∀ st type, (inferExpr ctx scope e st).1 = .ok type →
      (e.fold? = none ↔ e.HasZeroDivisor others)) := by
  refine ⟨fun c h => eval_of_fold? .shortCircuit others h, ?_, ?_⟩
  · intro c h st type htype
    exact (hasType_of_fold? h (Prod.ext htype rfl : _ = (_, _))).kind
  · intro he st type htype
    exact ⟨hasZeroDivisor_of_fold?_eq_none others he (Prod.ext htype rfl : _ = (_, _)),
      fun h => h.fold?_eq_none⟩

/-- The body of a member of a class that has nothing else. -/
def bareContext : BodyContext :=
  { symbols := default, table := default, hierarchy := default, classId := 0, decl := default
    member := "run" }

/-- The number at a position. -/
def numberAt (id : ExprId) (value : Int32) : Expr Mark := .literal ⟨id, {}⟩ (.int value)

/-- The condition `-2147483648 / -1 < 'a' && !false`, whose quotient wraps around. -/
def wrappedQuotient : Expr Mark :=
  .binary ⟨6, {}⟩ .and
    (.binary ⟨4, {}⟩ .lt
      (.binary ⟨2, {}⟩ .div (numberAt 0 Int32.minValue) (numberAt 1 (-1)))
      (.literal ⟨3, {}⟩ (.char 'a')))
    (.unary ⟨7, {}⟩ .not (.literal ⟨5, {}⟩ (.bool false)))

/-- The condition `false && 1 / (2 - 2) == 0`, whose quotient is not evaluated. -/
def skippedQuotient : Expr Mark :=
  .binary ⟨8, {}⟩ .and (.literal ⟨0, {}⟩ (.bool false))
    (.binary ⟨7, {}⟩ .eq
      (.binary ⟨5, {}⟩ .div (numberAt 1 1) (.binary ⟨4, {}⟩ .sub (numberAt 2 2) (numberAt 3 2)))
      (numberAt 6 0))

theorem quotients_agree :
    wrappedQuotient.fold? = some (.bool true) ∧
    (inferExpr bareContext [] wrappedQuotient {}).1 = .ok .boolean ∧
    wrappedQuotient.eval .shortCircuit (fun _ => .error .wrongOperand) = .ok (.bool true) ∧
    ((∃ value, Constant.bool true = .bool value) ↔ Ty.boolean.isBoolean = true) ∧
    ((∃ value, Constant.bool true = .int value) ↔ Ty.boolean.isNumeric = true) ∧
    skippedQuotient.isOperation = true ∧
    (inferExpr bareContext [] skippedQuotient {}).1 = .ok .boolean ∧
    (skippedQuotient.fold? = none ↔
      skippedQuotient.HasZeroDivisor (fun _ => .error .wrongOperand)) := by
  have hconstant : wrappedQuotient.fold? = some (.bool true) := by decide
  have htype : (inferExpr bareContext [] wrappedQuotient {}).1 = .ok .boolean := by decide
  have hskipped : (inferExpr bareContext [] skippedQuotient {}).1 = .ok .boolean := by decide
  obtain ⟨hvalue, hkind, -⟩ :=
    fold?_agrees wrappedQuotient (fun _ => .error .wrongOperand) bareContext []
  obtain ⟨-, -, hnone⟩ :=
    fold?_agrees skippedQuotient (fun _ => .error .wrongOperand) bareContext []
  obtain ⟨hboolean, hnumeric⟩ := hkind _ hconstant {} .boolean htype
  exact ⟨hconstant, htype, hvalue _ hconstant, hboolean, hnumeric, rfl, hskipped,
    hnone rfl {} .boolean hskipped⟩

end JoosStatics
