import ClangLens.Codes.Basic

/-!
# Kinds of syntax nodes

The kinds of cursor that reports name, and what a visitor may answer for a child.
-/

namespace ClangLens

/-- What a cursor stands for. -/
inductive CursorKind where
  | unexposedDecl | structDecl | unionDecl | classDecl | enumDecl | fieldDecl | enumConstantDecl
  | functionDecl | varDecl | parmDecl | objCInterfaceDecl | objCCategoryDecl | objCProtocolDecl
  | objCPropertyDecl | objCIvarDecl | objCInstanceMethodDecl | objCClassMethodDecl
  | objCImplementationDecl | objCCategoryImplDecl | typedefDecl | cxxMethod | namespaceDecl
  | linkageSpec | constructorDecl | destructorDecl | conversionFunction | templateTypeParameter
  | nonTypeTemplateParameter | templateTemplateParameter | functionTemplate | classTemplate
  | classTemplatePartialSpecialization | namespaceAlias | usingDirective | usingDeclaration
  | typeAliasDecl | objCSynthesizeDecl | objCDynamicDecl | cxxAccessSpecifier | objCSuperClassRef
  | objCProtocolRef | objCClassRef | typeRef | cxxBaseSpecifier | templateRef | namespaceRef
  | memberRef | labelRef | overloadedDeclRef | variableRef | invalidFile | noDeclFound
  | notImplemented | invalidCode | unexposedExpr | declRefExpr | memberRefExpr | callExpr
  | objCMessageExpr | blockExpr | integerLiteral | floatingLiteral | imaginaryLiteral
  | stringLiteral | characterLiteral | parenExpr | unaryOperator | arraySubscriptExpr
  | binaryOperator | compoundAssignOperator | conditionalOperator | cStyleCastExpr
  | cxxBoolLiteralExpr | cxxNullPtrLiteralExpr | cxxThisExpr | lambdaExpr | unexposedStmt
  | labelStmt | compoundStmt | caseStmt | defaultStmt | ifStmt | switchStmt | whileStmt | doStmt
  | forStmt | gotoStmt | indirectGotoStmt | continueStmt | breakStmt | returnStmt | gccAsmStmt
  | nullStmt | declStmt | translationUnit | unexposedAttr | preprocessingDirective
  | macroDefinition | macroExpansion | inclusionDirective | moduleImportDecl
  | typeAliasTemplateDecl | staticAssert | friendDecl | overloadCandidate
deriving DecidableEq

instance : CodeTable CursorKind where
  typeName := "CursorKind"
  label := "Cursor"
  entries := [
    ⟨.unexposedDecl, 1, "UnexposedDecl"⟩, ⟨.structDecl, 2, "StructDecl"⟩,
    ⟨.unionDecl, 3, "UnionDecl"⟩, ⟨.classDecl, 4, "ClassDecl"⟩, ⟨.enumDecl, 5, "EnumDecl"⟩,
    ⟨.fieldDecl, 6, "FieldDecl"⟩, ⟨.enumConstantDecl, 7, "EnumConstantDecl"⟩,
    ⟨.functionDecl, 8, "FunctionDecl"⟩, ⟨.varDecl, 9, "VarDecl"⟩, ⟨.parmDecl, 10, "ParmDecl"⟩,
    ⟨.objCInterfaceDecl, 11, "ObjCInterfaceDecl"⟩, ⟨.objCCategoryDecl, 12, "ObjCCategoryDecl"⟩,
    ⟨.objCProtocolDecl, 13, "ObjCProtocolDecl"⟩, ⟨.objCPropertyDecl, 14, "ObjCPropertyDecl"⟩,
    ⟨.objCIvarDecl, 15, "ObjCIvarDecl"⟩, ⟨.objCInstanceMethodDecl, 16, "ObjCInstanceMethodDecl"⟩,
    ⟨.objCClassMethodDecl, 17, "ObjCClassMethodDecl"⟩,
    ⟨.objCImplementationDecl, 18, "ObjCImplementationDecl"⟩,
    ⟨.objCCategoryImplDecl, 19, "ObjCCategoryImplDecl"⟩, ⟨.typedefDecl, 20, "TypedefDecl"⟩,
    ⟨.cxxMethod, 21, "CXXMethod"⟩, ⟨.namespaceDecl, 22, "Namespace"⟩,
    ⟨.linkageSpec, 23, "LinkageSpec"⟩, ⟨.constructorDecl, 24, "Constructor"⟩,
    ⟨.destructorDecl, 25, "Destructor"⟩, ⟨.conversionFunction, 26, "ConversionFunction"⟩,
    ⟨.templateTypeParameter, 27, "TemplateTypeParameter"⟩,
    ⟨.nonTypeTemplateParameter, 28, "NonTypeTemplateParameter"⟩,
    ⟨.templateTemplateParameter, 29, "TemplateTemplateParameter"⟩,
    ⟨.functionTemplate, 30, "FunctionTemplate"⟩, ⟨.classTemplate, 31, "ClassTemplate"⟩,
    ⟨.classTemplatePartialSpecialization, 32, "ClassTemplatePartialSpecialization"⟩,
    ⟨.namespaceAlias, 33, "NamespaceAlias"⟩, ⟨.usingDirective, 34, "UsingDirective"⟩,
    ⟨.usingDeclaration, 35, "UsingDeclaration"⟩, ⟨.typeAliasDecl, 36, "TypeAliasDecl"⟩,
    ⟨.objCSynthesizeDecl, 37, "ObjCSynthesizeDecl"⟩, ⟨.objCDynamicDecl, 38, "ObjCDynamicDecl"⟩,
    ⟨.cxxAccessSpecifier, 39, "CXXAccessSpecifier"⟩,
    ⟨.objCSuperClassRef, 40, "ObjCSuperClassRef"⟩, ⟨.objCProtocolRef, 41, "ObjCProtocolRef"⟩,
    ⟨.objCClassRef, 42, "ObjCClassRef"⟩, ⟨.typeRef, 43, "TypeRef"⟩,
    ⟨.cxxBaseSpecifier, 44, "CXXBaseSpecifier"⟩, ⟨.templateRef, 45, "TemplateRef"⟩,
    ⟨.namespaceRef, 46, "NamespaceRef"⟩, ⟨.memberRef, 47, "MemberRef"⟩,
    ⟨.labelRef, 48, "LabelRef"⟩, ⟨.overloadedDeclRef, 49, "OverloadedDeclRef"⟩,
    ⟨.variableRef, 50, "VariableRef"⟩, ⟨.invalidFile, 70, "InvalidFile"⟩,
    ⟨.noDeclFound, 71, "NoDeclFound"⟩, ⟨.notImplemented, 72, "NotImplemented"⟩,
    ⟨.invalidCode, 73, "InvalidCode"⟩, ⟨.unexposedExpr, 100, "UnexposedExpr"⟩,
    ⟨.declRefExpr, 101, "DeclRefExpr"⟩, ⟨.memberRefExpr, 102, "MemberRefExpr"⟩,
    ⟨.callExpr, 103, "CallExpr"⟩, ⟨.objCMessageExpr, 104, "ObjCMessageExpr"⟩,
    ⟨.blockExpr, 105, "BlockExpr"⟩, ⟨.integerLiteral, 106, "IntegerLiteral"⟩,
    ⟨.floatingLiteral, 107, "FloatingLiteral"⟩, ⟨.imaginaryLiteral, 108, "ImaginaryLiteral"⟩,
    ⟨.stringLiteral, 109, "StringLiteral"⟩, ⟨.characterLiteral, 110, "CharacterLiteral"⟩,
    ⟨.parenExpr, 111, "ParenExpr"⟩, ⟨.unaryOperator, 112, "UnaryOperator"⟩,
    ⟨.arraySubscriptExpr, 113, "ArraySubscriptExpr"⟩, ⟨.binaryOperator, 114, "BinaryOperator"⟩,
    ⟨.compoundAssignOperator, 115, "CompoundAssignOperator"⟩,
    ⟨.conditionalOperator, 116, "ConditionalOperator"⟩, ⟨.cStyleCastExpr, 117, "CStyleCastExpr"⟩,
    ⟨.cxxBoolLiteralExpr, 130, "CXXBoolLiteralExpr"⟩,
    ⟨.cxxNullPtrLiteralExpr, 131, "CXXNullPtrLiteralExpr"⟩, ⟨.cxxThisExpr, 132, "CXXThisExpr"⟩,
    ⟨.lambdaExpr, 144, "LambdaExpr"⟩, ⟨.unexposedStmt, 200, "UnexposedStmt"⟩,
    ⟨.labelStmt, 201, "LabelStmt"⟩, ⟨.compoundStmt, 202, "CompoundStmt"⟩,
    ⟨.caseStmt, 203, "CaseStmt"⟩, ⟨.defaultStmt, 204, "DefaultStmt"⟩, ⟨.ifStmt, 205, "IfStmt"⟩,
    ⟨.switchStmt, 206, "SwitchStmt"⟩, ⟨.whileStmt, 207, "WhileStmt"⟩, ⟨.doStmt, 208, "DoStmt"⟩,
    ⟨.forStmt, 209, "ForStmt"⟩, ⟨.gotoStmt, 210, "GotoStmt"⟩,
    ⟨.indirectGotoStmt, 211, "IndirectGotoStmt"⟩, ⟨.continueStmt, 212, "ContinueStmt"⟩,
    ⟨.breakStmt, 213, "BreakStmt"⟩, ⟨.returnStmt, 214, "ReturnStmt"⟩,
    ⟨.gccAsmStmt, 215, "GCCAsmStmt"⟩, ⟨.nullStmt, 230, "NullStmt"⟩, ⟨.declStmt, 231, "DeclStmt"⟩,
    ⟨.translationUnit, 350, "TranslationUnit"⟩, ⟨.unexposedAttr, 400, "UnexposedAttr"⟩,
    ⟨.preprocessingDirective, 500, "PreprocessingDirective"⟩,
    ⟨.macroDefinition, 501, "MacroDefinition"⟩, ⟨.macroExpansion, 502, "MacroExpansion"⟩,
    ⟨.inclusionDirective, 503, "InclusionDirective"⟩,
    ⟨.moduleImportDecl, 600, "ModuleImportDecl"⟩,
    ⟨.typeAliasTemplateDecl, 601, "TypeAliasTemplateDecl"⟩, ⟨.staticAssert, 602, "StaticAssert"⟩,
    ⟨.friendDecl, 603, "FriendDecl"⟩, ⟨.overloadCandidate, 700, "OverloadCandidate"⟩]

/-- How a traversal goes on after a child. -/
inductive ChildVisit where
  | stop | next | descend
deriving DecidableEq

instance : CodeTable ChildVisit where
  typeName := "ChildVisit"
  label := "ChildVisit"
  entries := [
    ⟨.stop, 0, "Break"⟩, ⟨.next, 1, "Continue"⟩, ⟨.descend, 2, "Recurse"⟩]

namespace CursorKind

/-- The kinds whose members are listed under them. -/
def isScope : CursorKind → Bool
  | .namespaceDecl | .structDecl | .classDecl | .unionDecl | .enumDecl | .classTemplate
  | .linkageSpec => true
  | _ => false

end CursorKind

end ClangLens
