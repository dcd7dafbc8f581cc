/-
JoosStatics.Proofs.Renaming.Signatures — signatures from renamed types.

A signature is made of what its names denote. When names denote renamed
types, the signature is the renamed one: `CompilationUnit.signature_rename`,
by way of the written types, members and clauses in it.
-/
import JoosStatics.Proofs.Linking.Signatures
import JoosStatics.Proofs.Renaming.Basic

namespace JoosStatics

variable {ρ : Renaming} {denote denote' : QualifiedName → ClassId}

theorem TypeSyntax.typeIn_rename {type : TypeSyntax}
    (h : ∀ name ∈ type.names, denote' name = ρ.type (denote name)) :
    type.typeIn denote' = (type.typeIn denote).rename ρ.type := by
  induction type with
  | primitive type => rfl
  | named ref => exact congrArg Ty.declared (h _ (List.mem_singleton_self _))
  | array element ih => exact congrArg Ty.array (ih h)

/-- References are named by what their names denote. -/
theorem map_denote_rename {refs : List TypeRef}
    (h : ∀ name ∈ refs.map TypeRef.name, denote' name = ρ.type (denote name)) :
    refs.map (fun ref => denote' ref.name) =
      (refs.map (fun ref => denote ref.name)).map ρ.type := by
  rw [List.map_map]
  exact List.map_congr_left (fun ref href => h _ (List.mem_map_of_mem href))

theorem map_typeIn_rename {params : List Param}
    (h : ∀ name ∈ params.flatMap (fun param => param.type.names),
      denote' name = ρ.type (denote name)) :
    params.map (fun param => param.type.typeIn denote') =
      (params.map (fun param => param.type.typeIn denote)).map (Ty.rename ρ.type) := by
  rw [List.map_map]
  refine List.map_congr_left (fun param hparam => TypeSyntax.typeIn_rename (fun name hname => ?_))
  exact h name (List.mem_flatMap.mpr ⟨param, hparam, hname⟩)

variable (hspan : ρ.span = id)
include hspan

theorem FieldDecl.signature_rename {f : FieldDecl}
    (h : ∀ name ∈ f.type.names, denote' name = ρ.type (denote name)) :
    f.signature denote' = (f.signature denote).rename ρ := by
  simp only [signature, FieldDef.rename, hspan, id, TypeSyntax.typeIn_rename h]

theorem MethodDecl.signature_rename {m : MethodDecl} (isInterface : Bool)
    (h : ∀ name ∈ signatureNames m.params m.returnType m.throws,
      denote' name = ρ.type (denote name)) :
    m.signature denote' isInterface = (m.signature denote isInterface).rename ρ := by
  obtain ⟨hparams, hothers⟩ := List.forall_mem_append.mp h
  obtain ⟨hresult, hthrows⟩ := List.forall_mem_append.mp hothers
  have htype : m.returnType.elim .void (TypeSyntax.typeIn denote') =
      (m.returnType.elim .void (TypeSyntax.typeIn denote)).rename ρ.type := by
    cases hreturn : m.returnType with
    | none => rfl
    | some type => exact TypeSyntax.typeIn_rename (fun name hname => hresult name (hreturn ▸ hname))
  simp only [signature, MethodDef.rename, hspan, id, map_typeIn_rename hparams,
    map_denote_rename hthrows, htype]

theorem ConstructorDecl.signature_rename {c : ConstructorDecl}
    (h : ∀ name ∈ signatureNames c.params none c.throws, denote' name = ρ.type (denote name)) :
    c.signature denote' = (c.signature denote).rename ρ := by
  obtain ⟨hparams, hothers⟩ := List.forall_mem_append.mp h
  obtain ⟨-, hthrows⟩ := List.forall_mem_append.mp hothers
  simp only [signature, ConstructorDef.rename, hspan, id, map_typeIn_rename hparams,
    map_denote_rename hthrows]

/-- When the names in a unit denote renamed types, its signature is renamed. -/
theorem CompilationUnit.signature_rename {u : CompilationUnit}
    (h : ∀ name ∈ u.decl.signatureNames, denote' name = ρ.type (denote name))
    (object : Option ClassId) :
    u.signature denote' (object.map ρ.type) = (u.signature denote object).rename ρ := by
  obtain ⟨hsuperclass, hothers⟩ := List.forall_mem_append.mp h
  obtain ⟨hinterfaces, hothers⟩ := List.forall_mem_append.mp hothers
  obtain ⟨hfields, hothers⟩ := List.forall_mem_append.mp hothers
  obtain ⟨hmethods, hconstructors⟩ := List.forall_mem_append.mp hothers
  have hsuper : u.superclassIn denote' (object.map ρ.type) =
      (u.superclassIn denote object).map ρ.type := by
    unfold superclassIn
    split
    · rfl
    · cases href : u.decl.classSuperclass with
      | none => rfl
      | some ref => exact congrArg some (hsuperclass _ (by simp [href]))
  have hfield : u.decl.fields.map (FieldDecl.signature denote') =
      (u.decl.fields.map (FieldDecl.signature denote)).map (FieldDef.rename ρ) := by
    rw [List.map_map]
    refine List.map_congr_left (fun f hf => FieldDecl.signature_rename hspan (fun name hname => ?_))
    exact hfields name (List.mem_flatMap.mpr ⟨f, hf, hname⟩)
  have hmethod : u.decl.methods.map (MethodDecl.signature denote' u.decl.isInterface) =
      (u.decl.methods.map (MethodDecl.signature denote u.decl.isInterface)).map
        (MethodDef.rename ρ) := by
    rw [List.map_map]
    refine List.map_congr_left (fun m hm =>
      MethodDecl.signature_rename hspan _ (fun name hname => ?_))
    exact hmethods name (List.mem_flatMap.mpr ⟨m, hm, hname⟩)
  have hconstructor : u.decl.constructorSignatures denote' =
      (u.decl.constructorSignatures denote).map (ConstructorDef.rename ρ) := by
    unfold TypeDecl.classConstructors at hconstructors
    unfold TypeDecl.constructorSignatures
    split
    · rfl
    · rename_i hclass
      rw [if_neg hclass] at hconstructors
      split
      · simp [ConstructorDef.rename, SymbolTable.defaultConstructor, hspan]
      · rw [List.map_map]
        refine List.map_congr_left (fun c hc =>
          ConstructorDecl.signature_rename hspan (fun name hname => ?_))
        exact hconstructors name (List.mem_flatMap.mpr ⟨c, hc, hname⟩)
  simp only [signature, ClassDef.rename, hspan, id, hsuper, hfield, hmethod, hconstructor,
    map_denote_rename hinterfaces]

omit hspan in
/-- A signature depends on the names in it only. -/
theorem CompilationUnit.signature_congr {u : CompilationUnit}
    (h : ∀ name ∈ u.decl.signatureNames, denote' name = denote name) (object : Option ClassId) :
    u.signature denote' object = u.signature denote object := by
  have hsame := signature_rename (ρ := .identity (fun _ _ => True)) rfl h object
  rwa [ClassDef.rename_identity, Renaming.type_identity, Option.map_id_apply] at hsame

end JoosStatics
