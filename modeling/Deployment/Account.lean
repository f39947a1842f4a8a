import Deployment.Identifier
import Deployment.Text.Blank

/-! # Accounts and tokens

* **`Account`** — who uploads; an account is also the namespace of what it deploys.
* **`Token`** — what a request is made with; it names the principal who asks. -/

namespace Deployment

/-- An account by name, well formed or not. -/
structure Account where
  name : String
  deriving DecidableEq, Repr

namespace Account

/-- The name can stand as the name of one directory. -/
def isValid (a : Account) : Bool := isIdentifier a.name

/-- An account as a JSON string. -/
def form : Json.Form Account := Json.Form.text.imap (⟨·⟩) (·.name)

end Account

/-- What a request is made with. -/
structure Token where
  text : String
  deriving DecidableEq, Repr

namespace Token

/-- The principal that the token names. -/
def principal (t : Token) : String := Text.trim t.text

/-- The token names nobody. -/
def isBlank (t : Token) : Bool := t.principal.isEmpty

/-- A token as a JSON string. -/
def form : Json.Form Token := Json.Form.text.imap (⟨·⟩) (·.text)

end Token

end Deployment
