import ClangLens.Codes.Basic

/-!
# Codes of indexed entities

What the indexer reports about an entity and about a reference to one.
-/

namespace ClangLens

/-- How an entity is referred to. -/
inductive ReferenceKind where
  | direct | implicit
deriving DecidableEq

instance : CodeTable ReferenceKind where
  typeName := "EntityRefKind"
  label := "IdxEntityRef"
  entries := [
    ⟨.direct, 1, "Direct"⟩, ⟨.implicit, 2, "Implicit"⟩]

/-- What an indexed entity is. -/
inductive EntityKind where
  | unexposed | typedef | function | variable | field | enumConstant | objCClass | objCProtocol
  | objCCategory | objCInstanceMethod | objCClassMethod | objCProperty | objCIvar | enum | struct
  | union | cxxClass | cxxNamespace | cxxNamespaceAlias | cxxStaticVariable | cxxStaticMethod
  | cxxInstanceMethod | cxxConstructor | cxxDestructor | cxxConversionFunction | cxxTypeAlias
  | cxxInterface
deriving DecidableEq

instance : CodeTable EntityKind where
  typeName := "EntityKind"
  label := "IdxEntity"
  entries := [
    ⟨.unexposed, 0, "Unexposed"⟩, ⟨.typedef, 1, "Typedef"⟩, ⟨.function, 2, "Function"⟩,
    ⟨.variable, 3, "Variable"⟩, ⟨.field, 4, "Field"⟩, ⟨.enumConstant, 5, "EnumConstant"⟩,
    ⟨.objCClass, 6, "ObjCClass"⟩, ⟨.objCProtocol, 7, "ObjCProtocol"⟩,
    ⟨.objCCategory, 8, "ObjCCategory"⟩, ⟨.objCInstanceMethod, 9, "ObjCInstanceMethod"⟩,
    ⟨.objCClassMethod, 10, "ObjCClassMethod"⟩, ⟨.objCProperty, 11, "ObjCProperty"⟩,
    ⟨.objCIvar, 12, "ObjCIvar"⟩, ⟨.enum, 13, "Enum"⟩, ⟨.struct, 14, "Struct"⟩,
    ⟨.union, 15, "Union"⟩, ⟨.cxxClass, 16, "CXXClass"⟩, ⟨.cxxNamespace, 17, "CXXNamespace"⟩,
    ⟨.cxxNamespaceAlias, 18, "CXXNamespaceAlias"⟩, ⟨.cxxStaticVariable, 19, "CXXStaticVariable"⟩,
    ⟨.cxxStaticMethod, 20, "CXXStaticMethod"⟩, ⟨.cxxInstanceMethod, 21, "CXXInstanceMethod"⟩,
    ⟨.cxxConstructor, 22, "CXXConstructor"⟩, ⟨.cxxDestructor, 23, "CXXDestructor"⟩,
    ⟨.cxxConversionFunction, 24, "CXXConversionFunction"⟩, ⟨.cxxTypeAlias, 25, "CXXTypeAlias"⟩,
    ⟨.cxxInterface, 26, "CXXInterface"⟩]

end ClangLens
