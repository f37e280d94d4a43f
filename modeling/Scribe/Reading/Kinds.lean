/-! The kinds of parse tree nodes that the rules tell apart. -/
namespace Scribe
namespace Reading

/-- Comments and directives that leave no trace, wherever they stand. -/
def noiseKinds : List String :=
  ["comment", "preproc_include", "preproc_def", "preproc_function_def", "preproc_call"]

def isNoise (kind : String) : Bool := kind ∈ noiseKinds

/-- Later branches of a conditional region. -/
def laterBranches : List String := ["preproc_else", "preproc_elif", "preproc_elifdef"]

def typeSpecifiers : List String :=
  ["primitive_type", "type_identifier", "sized_type_specifier", "qualified_identifier",
    "template_type", "placeholder_type_specifier", "auto"]

/-- Declarators that only add to the type of what they wrap. -/
def wrappingDeclarators : List String := ["pointer_declarator", "reference_declarator"]

def constQualifiers : List String := ["const", "constexpr"]

def ignoredSpecifiers : List String :=
  ["storage_class_specifier", "virtual", "explicit", "attribute_declaration"]

def binaryOperators : List String :=
  ["*", "/", "%", "+", "-", "<<", ">>", "<", "<=", ">", ">=", "<=>", "==", "!=", "&", "^", "|",
    "&&", "||", "and", "or", "bitand", "bitor", "xor"]

def unaryOperators : List String := ["!", "-", "+", "~", "not", "compl"]

def updateOperators : List String := ["++", "--"]

def assignmentOperators : List String :=
  ["=", "+=", "-=", "*=", "/=", "%=", "<<=", ">>=", "&=", "^=", "|="]

end Reading
end Scribe
