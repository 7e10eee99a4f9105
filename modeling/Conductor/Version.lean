/-!
The version of the library.
-/

namespace Conductor

def version : String := "0.1.0"

end Conductor
