import Tenancy.Facts.Declaration
import Tenancy.Facts.Handler

/-!
# Facts documents

A facts document holds what was found in one source file: the entities it declares and the handlers
it defines.
-/

set_option autoImplicit false

namespace Tenancy

open Wire

/-- What was found in one source file. -/
structure Facts where
  source : Option String
  declarations : List Declaration
  handlers : List Handler
  deriving Repr, Inhabited

/-- How facts documents are written. -/
def Facts.codec : Codec Facts :=
  (Codec.record false
    (.cons (.optional "source" .text)
    (.cons (.many "schema" Declaration.codec)
    (.cons (.many "handlers" Handler.codec) .nil)))).imap
    (fun (source, declarations, handlers, _) => ⟨source, declarations, handlers⟩)
    (fun f => (f.source, f.declarations, f.handlers, ()))

end Tenancy
