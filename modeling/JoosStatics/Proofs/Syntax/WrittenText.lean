/-
JoosStatics.Proofs.Syntax.WrittenText — programs as JSON text.

The JSON of a unit or a program can be written as a text that is read back
(`Json.Fits`): positions below `positionBound` and the other numbers are
integers of 64 bits, and the nesting is that of the declarations, which is
fixed, and of the array types in them, which is not. A type of `dims`
dimensions takes `dims + 3` levels, so the text of a unit is read back when
its types have at most 118 dimensions, that of a program when they have at
most 116.

* `CompilationUnit.toJson_fits`, `Program.toJson_fits` — the levels of units
  and programs.
-/
import JoosStatics.Linking.Lowering
import JoosStatics.Proofs.Json.ReadBack
import JoosStatics.Proofs.Syntax.RoundTrip

namespace JoosStatics

open Json

/-! ## §1 Parts of a value -/

namespace Json

attribute [simp] Fits.null Fits.bool Fits.str

variable {α : Type} {depth : Nat} {write : α → Json}

@[simp] theorem fits_obj {members : List (String × Json)} :
    Fits (depth + 1) (.obj members) ↔ ∀ member ∈ members, Fits depth member.2 := by
  constructor
  · intro h
    cases h with
    | obj h => exact h
  · exact .obj

theorem fits_ofList {items : List α} (h : ∀ item ∈ items, Fits depth (write item)) :
    Fits (depth + 1) (ofList write items) := by
  refine .arr (fun j hj => ?_)
  obtain ⟨item, hitem, rfl⟩ := List.mem_map.mp hj
  exact h item hitem

theorem fits_ofOption {value? : Option α} (h : ∀ value ∈ value?, Fits depth (write value)) :
    Fits depth (ofOption write value?) := by
  cases value? with
  | none => exact .null
  | some value => exact h value rfl

theorem fits_ofNat {n : Nat} (h : n < UInt64.size) : Fits depth (ofNat n) := by
  have hmin : Int64.minValue.toInt = -9223372036854775808 := by decide
  refine .int ?_ ?_ <;> simp only [Int.ofNat_eq_natCast] <;> omega

theorem fits_position {id : Nat} (h : id < positionBound) : Fits depth (ofNat id) := by
  have hbound : positionBound ≤ UInt64.size := by decide
  exact fits_ofNat (by omega)

theorem fits_positions {ids : List Nat} (h : ∀ id ∈ ids, id < positionBound) :
    Fits (depth + 1) (ofList ofNat ids) :=
  fits_ofList (fun id hid => fits_position (h id hid))

theorem fits_position? {id? : Option Nat} (h : ∀ id ∈ id?, id < positionBound) :
    Fits depth (ofOption ofNat id?) :=
  fits_ofOption (fun id hid => fits_position (h id hid))

end Json

/-! ## §2 Leaves -/

variable {depth rank : Nat}

@[simp] theorem QualifiedName.toJson_fits (n : QualifiedName) : Fits (depth + 1) n.toJson :=
  fits_ofList (fun text _ => .str text)

@[simp] theorem Span.toJson_fits (s : Span) : Fits (depth + 1) s.toJson := by
  simp [Span.toJson, fits_ofNat s.start.toNat_lt, fits_ofNat s.stop.toNat_lt]

@[simp] theorem Modifiers.toJson_fits (m : Modifiers) : Fits depth m.toJson := by
  have hbits : m.bits.toNat < UInt16.size := m.bits.toNat_lt
  have hbound : UInt16.size ≤ UInt64.size := by decide
  exact fits_ofNat (by omega)

@[simp] theorem TypeRef.toJson_fits (r : TypeRef) : Fits (depth + 2) r.toJson := by
  simp [TypeRef.toJson]

/-- The dimensions of a written array type; other types have none. -/
def TypeSyntax.dims : TypeSyntax → Nat
  | .array element => element.dims + 1
  | _ => 0

/-- Every dimension of a type takes a level. -/
theorem TypeSyntax.toJson_fits {t : TypeSyntax} (h : t.dims ≤ rank) :
    Fits (rank + 3) t.toJson := by
  induction t generalizing rank with
  | primitive type => simp [TypeSyntax.toJson]
  | named type => simp [TypeSyntax.toJson]
  | array element ih =>
    simp only [TypeSyntax.dims] at h
    obtain ⟨rank, rfl⟩ : ∃ n, rank = n + 1 := ⟨rank - 1, by omega⟩
    have helement : Fits (rank + 3) element.toJson := ih (by omega)
    simpa [TypeSyntax.toJson] using helement

@[simp] theorem Literal.toJson_fits (l : Literal) : Fits (depth + 1) l.toJson := by
  cases l with
  | int value =>
    have hmin : Int32.minValue.toInt ≤ value.toInt := value.minValue_le_toInt
    have hmax : value.toInt ≤ Int32.maxValue.toInt := value.toInt_le
    have hmin' : Int64.minValue.toInt ≤ Int32.minValue.toInt := by decide
    have hmax' : Int32.maxValue.toInt < UInt64.size := by decide
    have hint : Fits depth (.int value.toInt) := .int (by omega) (by omega)
    simpa [Literal.toJson] using hint
  | bool | char | string | null => simp [Literal.toJson]

/-! ## §3 Expressions and statements -/

theorem ExprNode.toJson_fits {node : ExprNode}
    (hids : ∀ id ∈ node.form.children, id < positionBound)
    (htypes : ∀ type ∈ node.form.writtenType?, type.dims ≤ rank) :
    Fits (rank + 4) node.toJson := by
  obtain ⟨form, range⟩ := node
  cases form with
  | methodCall receiver name args =>
    have hreceiver : Fits (rank + 3) (ofOption ofNat receiver) := fits_position?
      (fun id hid => hids id (List.mem_append_left _ (Option.mem_toList.mpr hid)))
    have hargs : Fits (rank + 3) (ofList ofNat args) := fits_positions
      (fun id hid => hids id (List.mem_append_right _ hid))
    simp [ExprNode.toJson, ExprForm.toJsonMembers, hreceiver, hargs]
  | create type args =>
    have hargs : Fits (rank + 3) (ofList ofNat args) := fits_positions hids
    simp [ExprNode.toJson, ExprForm.toJsonMembers, hargs]
  | createArray element lengths =>
    have helement := TypeSyntax.toJson_fits (htypes element rfl)
    have hlengths : Fits (rank + 3) (ofList ofNat lengths) := fits_positions hids
    simp [ExprNode.toJson, ExprForm.toJsonMembers, helement, hlengths]
  | cast type operand =>
    have htype := TypeSyntax.toJson_fits (htypes type rfl)
    have hoperand : Fits (rank + 3) (ofNat operand) :=
      fits_position (hids operand List.mem_cons_self)
    simp [ExprNode.toJson, ExprForm.toJsonMembers, htype, hoperand]
  | instanceOf operand type =>
    have htype := TypeSyntax.toJson_fits (htypes type rfl)
    have hoperand : Fits (rank + 3) (ofNat operand) :=
      fits_position (hids operand List.mem_cons_self)
    simp [ExprNode.toJson, ExprForm.toJsonMembers, htype, hoperand]
  | _ =>
    simp only [ExprForm.children, List.forall_mem_cons] at hids
    simp [ExprNode.toJson, ExprForm.toJsonMembers, fits_position, hids]

theorem StmtNode.toJson_fits {node : StmtNode}
    (hids : ∀ id ∈ node.form.stmtChildren ++ node.form.exprChildren, id < positionBound)
    (htypes : ∀ type ∈ node.form.writtenType?, type.dims ≤ rank) :
    Fits (rank + 4) node.toJson := by
  have hstmts := fun id hid => hids id (List.mem_append_left _ hid)
  have hexprs := fun id hid => hids id (List.mem_append_right _ hid)
  obtain ⟨form, range⟩ := node
  cases form with
  | block stmts =>
    have hblock : Fits (rank + 3) (ofList ofNat stmts) := fits_positions hstmts
    simp [StmtNode.toJson, StmtForm.toJsonMembers, hblock]
  | localVar type name initializer =>
    have htype := TypeSyntax.toJson_fits (htypes type rfl)
    have hinitializer : Fits (rank + 3) (ofOption ofNat initializer) := fits_position?
      (fun id hid => hexprs id (Option.mem_toList.mpr hid))
    simp [StmtNode.toJson, StmtForm.toJsonMembers, htype, hinitializer]
  | branch condition thenBranch elseBranch =>
    have hcondition : Fits (rank + 3) (ofNat condition) :=
      fits_position (hexprs condition List.mem_cons_self)
    have hthen : Fits (rank + 3) (ofNat thenBranch) :=
      fits_position (hstmts thenBranch List.mem_cons_self)
    have helse : Fits (rank + 3) (ofOption ofNat elseBranch) := fits_position?
      (fun id hid => hstmts id (List.mem_cons_of_mem _ (Option.mem_toList.mpr hid)))
    simp [StmtNode.toJson, StmtForm.toJsonMembers, hcondition, hthen, helse]
  | forLoop init condition update body =>
    have hinit : Fits (rank + 3) (ofOption ofNat init) := fits_position?
      (fun id hid => hstmts id (List.mem_append_left _ (Option.mem_toList.mpr hid)))
    have hcondition : Fits (rank + 3) (ofOption ofNat condition) := fits_position?
      (fun id hid => hexprs id (List.mem_append_left _ (Option.mem_toList.mpr hid)))
    have hupdate : Fits (rank + 3) (ofOption ofNat update) := fits_position?
      (fun id hid => hexprs id (List.mem_append_right _ (Option.mem_toList.mpr hid)))
    have hbody : Fits (rank + 3) (ofNat body) := fits_position
      (hstmts body (List.mem_append_right _ List.mem_cons_self))
    simp [StmtNode.toJson, StmtForm.toJsonMembers, hinit, hcondition, hupdate, hbody]
  | returnValue value =>
    have hvalue : Fits (rank + 3) (ofOption ofNat value) := fits_position?
      (fun id hid => hexprs id (Option.mem_toList.mpr hid))
    simp [StmtNode.toJson, StmtForm.toJsonMembers, hvalue]
  | constructorCall call args =>
    have hargs : Fits (rank + 3) (ofList ofNat args) := fits_positions hexprs
    simp [StmtNode.toJson, StmtForm.toJsonMembers, hargs]
  | _ =>
    simp [StmtForm.stmtChildren, StmtForm.exprChildren] at hids
    simp [StmtNode.toJson, StmtForm.toJsonMembers, fits_position, hids]

/-! ## §4 Declarations -/

/-- Every type written in a declaration, in its signatures and in its bodies. -/
def TypeDecl.types (d : TypeDecl) : List TypeSyntax :=
  d.fields.map FieldDecl.type ++ d.constructors.flatMap (fun c => c.params.map Param.type) ++
    d.methods.flatMap (fun m => m.returnType.toList ++ m.params.map Param.type) ++
    d.bodies.writtenTypes

theorem BodyArena.toJson_fits {a : BodyArena}
    (hids : ∀ position ∈ a.positions, position < positionBound)
    (htypes : ∀ type ∈ a.writtenTypes, type.dims ≤ rank) : Fits (rank + 6) a.toJson := by
  have hstmts : Fits (rank + 5) (ofList StmtNode.toJson a.stmts.toList) := by
    refine fits_ofList (fun node hnode => StmtNode.toJson_fits (fun id hid => hids id ?_)
      (fun type htype => htypes type ?_))
    · exact List.mem_append_left _ (List.mem_flatMap.mpr ⟨node, hnode, hid⟩)
    · exact List.mem_append_left _ (List.mem_filterMap.mpr ⟨node, hnode, htype⟩)
  have hexprs : Fits (rank + 5) (ofList ExprNode.toJson a.exprs.toList) := by
    refine fits_ofList (fun node hnode => ExprNode.toJson_fits (fun id hid => hids id ?_)
      (fun type htype => htypes type ?_))
    · exact List.mem_append_right _ (List.mem_flatMap.mpr ⟨node, hnode, hid⟩)
    · exact List.mem_append_right _ (List.mem_filterMap.mpr ⟨node, hnode, htype⟩)
  simp [BodyArena.toJson, hstmts, hexprs]

theorem params_fit {params : List Param} (h : ∀ type ∈ params.map Param.type, type.dims ≤ rank) :
    Fits (rank + 5) (ofList Param.toJson params) := by
  refine fits_ofList (fun p hp => ?_)
  have htype := TypeSyntax.toJson_fits (h p.type (List.mem_map_of_mem hp))
  simp [Param.toJson, htype]

theorem typeRefs_fit (refs : List TypeRef) : Fits (depth + 3) (ofList TypeRef.toJson refs) :=
  fits_ofList (fun r _ => r.toJson_fits)

theorem FieldDecl.toJson_fits {f : FieldDecl} (hroot : ∀ root ∈ f.initializer, root < positionBound)
    (htype : f.type.dims ≤ rank) : Fits (rank + 4) f.toJson := by
  simp [FieldDecl.toJson, TypeSyntax.toJson_fits htype, fits_position? hroot]

theorem ConstructorDecl.toJson_fits {c : ConstructorDecl} (hroot : c.body < positionBound)
    (htypes : ∀ type ∈ c.params.map Param.type, type.dims ≤ rank) :
    Fits (rank + 6) c.toJson := by
  simp [ConstructorDecl.toJson, params_fit htypes, typeRefs_fit, fits_position hroot]

theorem MethodDecl.toJson_fits {m : MethodDecl} (hroot : ∀ root ∈ m.body, root < positionBound)
    (htypes : ∀ type ∈ m.returnType.toList ++ m.params.map Param.type, type.dims ≤ rank) :
    Fits (rank + 6) m.toJson := by
  have hreturn : Fits (rank + 5) (ofOption TypeSyntax.toJson m.returnType) := by
    refine fits_ofOption (fun type htype => TypeSyntax.toJson_fits ?_)
    have hdims := htypes type (List.mem_append_left _ (Option.mem_toList.mpr htype))
    omega
  have hparams := params_fit (fun type htype => htypes type (List.mem_append_right _ htype))
  simp [MethodDecl.toJson, hreturn, hparams, typeRefs_fit, fits_position? hroot]

theorem TypeDecl.toJson_fits {d : TypeDecl}
    (hids : ∀ position ∈ d.positions, position < positionBound)
    (htypes : ∀ type ∈ d.types, type.dims ≤ rank) : Fits (rank + 8) d.toJson := by
  simp only [TypeDecl.types, List.mem_append] at htypes
  have hstmt : ∀ root ∈ d.stmtRoots, root < positionBound := fun root hroot =>
    hids root (List.mem_append_right _ (List.mem_append_left _ hroot))
  have hexpr : ∀ root ∈ d.exprRoots, root < positionBound := fun root hroot =>
    hids root (List.mem_append_right _ (List.mem_append_right _ hroot))
  have hfields : Fits (rank + 7) (ofList FieldDecl.toJson d.fields) := by
    refine fits_ofList (fun f hf => FieldDecl.toJson_fits ?_ ?_)
    · exact fun root hroot => hexpr root (List.mem_filterMap.mpr ⟨f, hf, hroot⟩)
    · have hdims := htypes f.type (.inl (.inl (.inl (List.mem_map_of_mem hf))))
      omega
  have hconstructors : Fits (rank + 7) (ofList ConstructorDecl.toJson d.constructors) := by
    refine fits_ofList (fun c hc => ConstructorDecl.toJson_fits ?_ (fun type htype => ?_))
    · exact hstmt c.body (List.mem_append_left _ (List.mem_map_of_mem hc))
    · exact htypes type (.inl (.inl (.inr (List.mem_flatMap.mpr ⟨c, hc, htype⟩))))
  have hmethods : Fits (rank + 7) (ofList MethodDecl.toJson d.methods) := by
    refine fits_ofList (fun m hm => MethodDecl.toJson_fits ?_ (fun type htype => ?_))
    · exact fun root hroot =>
        hstmt root (List.mem_append_right _ (List.mem_filterMap.mpr ⟨m, hm, hroot⟩))
    · exact htypes type (.inl (.inr (List.mem_flatMap.mpr ⟨m, hm, htype⟩)))
  have hbodies : Fits (rank + 7) d.bodies.toJson := by
    refine BodyArena.toJson_fits
      (fun id hid => hids id (List.mem_append_left _ hid)) (fun type htype => ?_)
    have hdims := htypes type (.inr htype)
    omega
  have hsuperclass : Fits (rank + 7) (ofOption TypeRef.toJson d.superclass) :=
    fits_ofOption (fun r _ => r.toJson_fits)
  simp [TypeDecl.toJson, hfields, hconstructors, hmethods, hbodies, hsuperclass, typeRefs_fit]

/-- The JSON of a unit has nine levels around its deepest type. -/
theorem CompilationUnit.toJson_fits {u : CompilationUnit} (h : u.Addressable)
    (htypes : ∀ type ∈ u.decl.types, type.dims ≤ rank) : Fits (rank + 9) u.toJson := by
  have hfile : Fits (rank + 8) (ofOption .str u.file) := fits_ofOption (fun text _ => .str text)
  have hpackage : Fits (rank + 8) (ofOption QualifiedName.toJson u.package) :=
    fits_ofOption (fun n _ => n.toJson_fits)
  have himports : Fits (rank + 8) (ofList ImportDecl.toJson u.imports) := by
    refine fits_ofList (fun i _ => ?_)
    cases i <;> simp [ImportDecl.toJson]
  simp [CompilationUnit.toJson, hfile, hpackage, himports, TypeDecl.toJson_fits h htypes]

/-- The JSON of a program has eleven. -/
theorem Program.toJson_fits {p : Program} (h : p.Addressable)
    (htypes : ∀ unit ∈ p.units, ∀ type ∈ unit.decl.types, type.dims ≤ rank) :
    Fits (rank + 11) p.toJson := by
  have hunits : Fits (rank + 10) (ofList CompilationUnit.toJson p.units) :=
    fits_ofList (fun unit hunit => CompilationUnit.toJson_fits (h unit hunit) (htypes unit hunit))
  simp [Program.toJson, hunits]

end JoosStatics
