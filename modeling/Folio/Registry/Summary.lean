import Folio.Registry
import Folio.Text.Quoted

/-!
# Folio.Registry.Summary

A registry in one line: the block types that it knows.
-/

namespace Folio
namespace Registry

/-- The block types of a registry in ascending order. -/
def summary (r : Registry) : String :=
  "Registry \x7b tags: [" ++ ", ".intercalate (r.tags.map Text.quoted) ++ "] \x7d"

end Registry
end Folio
