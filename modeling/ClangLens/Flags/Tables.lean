import ClangLens.Flags.Basic

/-!
# The option words

The tables of the seven option words and the sets that other modules name.
-/

namespace ClangLens

namespace FlagTable

/-- How a translation unit is parsed. -/
def parseFlags : FlagTable 32 where
  typeName := "TranslationUnitFlags"
  label := "TranslationUnit"
  entries := [
    ⟨"DETAILED_PREPROCESSING_RECORD", 1, "DetailedPreprocessingRecord"⟩,
    ⟨"INCOMPLETE", 2, "Incomplete"⟩, ⟨"PRECOMPILED_PREAMBLE", 4, "PrecompiledPreamble"⟩,
    ⟨"CACHE_COMPLETION_RESULTS", 8, "CacheCompletionResults"⟩,
    ⟨"FOR_SERIALIZATION", 16, "ForSerialization"⟩, ⟨"CXX_CHAINED_PCH", 32, "CXXChainedPCH"⟩,
    ⟨"SKIP_FUNCTION_BODIES", 64, "SkipFunctionBodies"⟩,
    ⟨"INCLUDE_BRIEF_COMMENTS_IN_CODE_COMPLETION", 128, "IncludeBriefCommentsInCodeCompletion"⟩,
    ⟨"CREATE_PREAMBLE_ON_FIRST_PARSE", 256, "CreatePreambleOnFirstParse"⟩,
    ⟨"KEEP_GOING", 512, "KeepGoing"⟩, ⟨"SINGLE_FILE_PARSE", 1024, "SingleFileParse"⟩,
    ⟨"LIMIT_SKIP_FUNCTION_BODIES_TO_PREAMBLE", 2048, "LimitSkipFunctionBodiesToPreamble"⟩,
    ⟨"INCLUDE_ATTRIBUTED_TYPES", 4096, "IncludeAttributedTypes"⟩,
    ⟨"VISIT_IMPLICIT_ATTRIBUTES", 8192, "VisitImplicitAttributes"⟩,
    ⟨"IGNORE_NON_ERRORS_FROM_INCLUDED_FILES", 16384, "IgnoreNonErrorsFromIncludedFiles"⟩,
    ⟨"RETAIN_EXCLUDED_CONDITIONAL_BLOCKS", 32768, "RetainExcludedConditionalBlocks"⟩]

/-- What code completion offers. -/
def completeFlags : FlagTable 32 where
  typeName := "CodeCompleteFlags"
  label := "CodeComplete"
  entries := [
    ⟨"INCLUDE_MACROS", 1, "IncludeMacros"⟩, ⟨"INCLUDE_CODE_PATTERNS", 2, "IncludeCodePatterns"⟩,
    ⟨"INCLUDE_BRIEF_COMMENTS", 4, "IncludeBriefComments"⟩, ⟨"SKIP_PREAMBLE", 8, "SkipPreamble"⟩,
    ⟨"INCLUDE_COMPLETIONS_WITH_FIX_ITS", 16, "IncludeCompletionsWithFixIts"⟩]

/-- What kinds of entity fit at the completion point. -/
def completionContexts : FlagTable 64 where
  typeName := "CompletionContext"
  label := "CompletionContext"
  entries := [
    ⟨"UNEXPOSED", 0, "Unexposed"⟩, ⟨"ANY_TYPE", 1, "AnyType"⟩, ⟨"ANY_VALUE", 2, "AnyValue"⟩,
    ⟨"OBJC_OBJECT_VALUE", 4, "ObjCObjectValue"⟩, ⟨"OBJC_SELECTOR_VALUE", 8, "ObjCSelectorValue"⟩,
    ⟨"CXX_CLASS_TYPE_VALUE", 16, "CXXClassTypeValue"⟩,
    ⟨"DOT_MEMBER_ACCESS", 32, "DotMemberAccess"⟩,
    ⟨"ARROW_MEMBER_ACCESS", 64, "ArrowMemberAccess"⟩,
    ⟨"OBJC_PROPERTY_ACCESS", 128, "ObjCPropertyAccess"⟩, ⟨"ENUM_TAG", 256, "EnumTag"⟩,
    ⟨"UNION_TAG", 512, "UnionTag"⟩, ⟨"STRUCT_TAG", 1024, "StructTag"⟩,
    ⟨"CLASS_TAG", 2048, "ClassTag"⟩, ⟨"NAMESPACE", 4096, "Namespace"⟩,
    ⟨"NESTED_NAME_SPECIFIER", 8192, "NestedNameSpecifier"⟩,
    ⟨"OBJC_INTERFACE", 16384, "ObjCInterface"⟩, ⟨"OBJC_PROTOCOL", 32768, "ObjCProtocol"⟩,
    ⟨"OBJC_CATEGORY", 65536, "ObjCCategory"⟩,
    ⟨"OBJC_INSTANCE_MESSAGE", 131072, "ObjCInstanceMessage"⟩,
    ⟨"OBJC_CLASS_MESSAGE", 262144, "ObjCClassMessage"⟩,
    ⟨"OBJC_SELECTOR_NAME", 524288, "ObjCSelectorName"⟩, ⟨"MACRO_NAME", 1048576, "MacroName"⟩,
    ⟨"NATURAL_LANGUAGE", 2097152, "NaturalLanguage"⟩, ⟨"INCLUDED_FILE", 4194304, "IncludedFile"⟩,
    ⟨"UNKNOWN", 8388607, "Unknown"⟩]

/-- Which parts of a diagnostic its formatted text shows. -/
def displayOptions : FlagTable 32 where
  typeName := "DiagnosticDisplayOptions"
  label := "Diagnostic"
  entries := [
    ⟨"DISPLAY_SOURCE_LOCATION", 1, "DisplaySourceLocation"⟩,
    ⟨"DISPLAY_COLUMN", 2, "DisplayColumn"⟩, ⟨"DISPLAY_SOURCE_RANGES", 4, "DisplaySourceRanges"⟩,
    ⟨"DISPLAY_OPTION", 8, "DisplayOption"⟩, ⟨"DISPLAY_CATEGORY_ID", 16, "DisplayCategoryId"⟩,
    ⟨"DISPLAY_CATEGORY_NAME", 32, "DisplayCategoryName"⟩]

/-- Thread priorities of an index. -/
def globalOptions : FlagTable 32 where
  typeName := "GlobalOptions"
  label := "GlobalOpt"
  entries := [
    ⟨"THREAD_BACKGROUND_PRIORITY_FOR_INDEXING", 1, "ThreadBackgroundPriorityForIndexing"⟩,
    ⟨"THREAD_BACKGROUND_PRIORITY_FOR_EDITING", 2, "ThreadBackgroundPriorityForEditing"⟩,
    ⟨"THREAD_BACKGROUND_PRIORITY_FOR_ALL", 3, "ThreadBackgroundPriorityForAll"⟩]

/-- What the indexer reports. -/
def indexingFlags : FlagTable 32 where
  typeName := "IndexOptFlags"
  label := "IndexOpt"
  entries := [
    ⟨"SUPPRESS_REDUNDANT_REFS", 1, "SuppressRedundantRefs"⟩,
    ⟨"INDEX_FUNCTION_LOCAL_SYMBOLS", 2, "IndexFunctionLocalSymbols"⟩,
    ⟨"INDEX_IMPLICIT_TEMPLATE_INSTANTIATIONS", 4, "IndexImplicitTemplateInstantiations"⟩,
    ⟨"SUPPRESS_WARNINGS", 8, "SuppressWarnings"⟩,
    ⟨"SKIP_PARSED_BODIES_IN_SESSION", 16, "SkipParsedBodiesInSession"⟩]

/-- The parts a symbol plays at a reference. -/
def symbolRoles : FlagTable 32 where
  typeName := "SymbolRole"
  label := "SymbolRole"
  entries := [
    ⟨"DECLARATION", 1, "Declaration"⟩, ⟨"DEFINITION", 2, "Definition"⟩,
    ⟨"REFERENCE", 4, "Reference"⟩, ⟨"READ", 8, "Read"⟩, ⟨"WRITE", 16, "Write"⟩,
    ⟨"CALL", 32, "Call"⟩, ⟨"DYNAMIC", 64, "Dynamic"⟩, ⟨"ADDRESS_OF", 128, "AddressOf"⟩,
    ⟨"IMPLICIT", 256, "Implicit"⟩]

end FlagTable

abbrev ParseFlags := Flags FlagTable.parseFlags

abbrev CompleteFlags := Flags FlagTable.completeFlags

abbrev CompletionContexts := Flags FlagTable.completionContexts

abbrev DisplayOptions := Flags FlagTable.displayOptions

abbrev GlobalOptions := Flags FlagTable.globalOptions

abbrev IndexingFlags := Flags FlagTable.indexingFlags

abbrev SymbolRoles := Flags FlagTable.symbolRoles

/-- Go on after unresolved includes, so that as much as possible of a file is seen. -/
def ParseFlags.keepGoing : ParseFlags := ⟨0x200⟩

namespace CompleteFlags

def macros : CompleteFlags := ⟨1⟩

def codePatterns : CompleteFlags := ⟨2⟩

def briefComments : CompleteFlags := ⟨4⟩

end CompleteFlags

namespace IndexingFlags

def localSymbols : IndexingFlags := ⟨2⟩

def suppressWarnings : IndexingFlags := ⟨8⟩

end IndexingFlags

end ClangLens
