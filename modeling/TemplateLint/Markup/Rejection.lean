/-
  TemplateLint.Markup.Rejection — why no document comes out of a text.

  A malformed text has an error that its author can be told.  One kind of
  text has none: when the text of an entity closes the outermost element, the
  element that the next close tag would end is gone.  Such a text is
  `overclosed`; reading is given up, and nothing is said about it.
-/
import TemplateLint.Markup.SyntaxError

namespace TemplateLint

/-- Why no document comes out of a text. -/
inductive Rejection where
  /-- The text is malformed, and the error says how. -/
  | malformed (error : SyntaxError)
  /-- A close tag comes where every element is closed already. -/
  | overclosed
  deriving DecidableEq, Repr

end TemplateLint
