import ComponentTsx.Declaration

/-!
# The properties of a component

The properties of a component have the type that its preamble declares under the
name `Props`; the first declaration counts.  Without one, any record will do.
-/

namespace ComponentTsx

set_option autoImplicit false

/-- The type of a component's properties: how the preamble declares it, if it does. -/
structure Props where
  declaration : Option PropsDeclaration
deriving DecidableEq, Repr

namespace Props

/-- The properties declared first. -/
def ofDeclarations (declarations : List Declaration) : Props :=
  ⟨declarations.findSome? (·.props)⟩

/-- The properties of a component with a preamble or without one. -/
def ofPreamble (preamble : Option Text) : Props :=
  ⟨preamble.bind fun text => (ofDeclarations (Declaration.scan text)).declaration⟩

/-- A short name for the kind of declaration. -/
def kindName (props : Props) : String :=
  match props.declaration with
  | none => "none"
  | some (.interface _) => "interface"
  | some (.typeAlias _) => "type"
  | some (.imported _) => "import"

/-- Whether no declaration was found. -/
def isUndeclared (props : Props) : Bool := props.declaration.isNone

/-- The type without arguments. -/
def typeExpression (props : Props) : Text :=
  if props.isUndeclared then "Record<string, any>".toList else propsName.toList

/-- The type parameters of the declaration, if it has any. -/
def clause? (props : Props) : Option GenericClause :=
  props.declaration.bind PropsDeclaration.clause?

/--
Whether a statement of its own must separate the preamble from the markup.  A local declaration can
end in such a way that the markup's first tag would be read as its continuation.
-/
def needsPadding (props : Props) : Bool :=
  match props.declaration with
  | some (.interface _) => true
  | some (.typeAlias _) => true
  | _ => false

/-- Whether the ambient declaration of the component's globals can refer to the type. -/
def hasAmbientDeclaration (props : Props) : Bool := !props.isUndeclared

/-- The type parameters as declared, or nothing. -/
def declarationClause (props : Props) : Text := (props.clause?.map (·.raw)).getD []

/-- The type of the properties with its type arguments. -/
def parameterType (props : Props) : Text :=
  props.typeExpression ++ (props.clause?.map GenericClause.usage).getD []

end Props

end ComponentTsx
