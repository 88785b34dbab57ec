/-
  TemplateLint.Check — the accessibility checks.

  A check looks at one kind of HTML element and breaks at most one rule for
  each of them: `Check.verdict` names it.  `Check.offenders` lists the
  offending elements of a tree in document order.
-/
import TemplateLint.Directive

namespace TemplateLint

/-! ## §1. Rules -/

/-- What an element can do wrong. -/
inductive Rule where
  | missingLinkTarget
  | placeholderLinkTarget
  | missingImageDescription
  | missingLinkContent
  | missingButtonContent
  | missingLabelAssociation
  deriving DecidableEq, Repr

namespace Rule

/-- All rules. -/
def all : List Rule :=
  [missingLinkTarget, placeholderLinkTarget, missingImageDescription, missingLinkContent,
    missingButtonContent, missingLabelAssociation]

/-- The name of the rule in reports. -/
def id : Rule → String
  | missingLinkTarget => "missing-link-target"
  | placeholderLinkTarget => "placeholder-link-target"
  | missingImageDescription => "missing-image-description"
  | missingLinkContent => "missing-link-content"
  | missingButtonContent => "missing-button-content"
  | missingLabelAssociation => "missing-label-association"

/-- What a report says to the author of the page. -/
def guidance : Rule → String
  | missingLinkTarget =>
    "The <a> element is missing the href attribute. Without the href attribute an anchor " ++
    "represents a placeholder for where a link might otherwise have been placed and is " ++
    "invisible for screen readers. If the <a> is used to create interactive clickable " ++
    "elements, consider using the <button type=“button”> element instead for this."
  | placeholderLinkTarget =>
    "The <a> element href attribute should not be a single \"#\", it can cause the page to " ++
    "scroll back to the top and it adds an entry to the browser history, so it takes an " ++
    "additiona  click of the back button to go to the previous page. Consider using a " ++
    "<button type=“button”> element to create interactive clickable elements."
  | missingImageDescription =>
    "The <img> element requires an alt attribute. The alt attribute provides descriptive " ++
    "information for an image if a user for some reason cannot view it (because of slow " ++
    "connection, an error, or if the user uses a screen reader). If the image is " ++
    "considered decorative, the alt attribute should be left empty, but not removed, so " ++
    "screen readers will ignore the image."
  | missingLinkContent =>
    "The <a> element requires descriptive content that help users better understand what " ++
    "they can expect if they click the link. An <a> element without descriptive text will " ++
    "only announce the href path to screen reader users. Keep in mind that users of screen " ++
    "readers have trouble distinguishing icons and need descriptive text to understand the " ++
    "context of the <button>. Consider adding descriptive content in the form of text, an " ++
    "aria-label attribute or an image."
  | missingButtonContent =>
    "The <button> element requires descriptive text that helps users understand what they " ++
    "can expect when they click it. Keep in mind that users of screen readers have trouble " ++
    "distinguishing icons and need descriptive text to understand the context of the " ++
    "<button>. Consider adding descriptive text in the form of text or an aria-label " ++
    "attribute."
  | missingLabelAssociation =>
    "The <label> element needs to be explicitly associated with a form control through the " ++
    "use of nesting or the for attribute, whose value needs to correspond to the value of " ++
    "the id attribute of the associated form control element (<input>, <textarea> and " ++
    "<select>)."

end Rule

/-! ## §2. What an element holds -/

namespace Element

/-- Whether the element is the HTML element `name`: in the namespace of HTML
or in none. -/
def isHtml (e : Element) (name : String) : Bool :=
  e.tag.name = name ∧ (e.tag.ns = none ∨ e.tag.ns = some "" ∨ e.tag.ns = some xhtmlNs)

/-- Whether there is character data below the element, be it blank. -/
def holdsText (e : Element) : Bool :=
  e.descendants.any Node.isText

/-- Whether one of the HTML elements `names` stands below the element. -/
def holdsElement (e : Element) (names : List String) : Bool :=
  e.innerElements.any fun inner => names.any inner.isHtml

/-- Whether the element is there to be replaced by rendered content, or to
be filled with it. -/
def isRendered (e : Element) : Bool :=
  (e.tag.tal? "content").isSome || (e.tag.tal? "replace").isSome ||
    (e.tag.ns = some talNs ∧ e.tag.name = "block" ∧ (e.tag.plain? "replace").isSome)

/-- Whether rendering puts content into the element. -/
def isFilled (e : Element) : Bool :=
  (e.tag.tal? "content").isSome || e.innerElements.any isRendered

/-- Whether the element has a label for screen readers. -/
def isLabelled (e : Element) : Bool :=
  (e.tag.value? "aria-label").any (!·.isEmpty)

/-- Whether a link without a target acts as a button. -/
def actsAsButton (e : Element) : Bool :=
  e.tag.value? "role" = some "button" || (e.tag.value? "preventDefault").any (!·.isEmpty)

end Element

/-! ## §3. Checks -/

/-- A check of one kind of element. -/
inductive Check where
  | linkTarget
  | imageDescription
  | linkContent
  | buttonContent
  | labelAssociation
  deriving DecidableEq, Repr

namespace Check

/-- All checks, in the order in which they run by default. -/
def all : List Check :=
  [linkTarget, imageDescription, linkContent, buttonContent, labelAssociation]

/-- The name of the check. -/
def name : Check → String
  | linkTarget => "link-target"
  | imageDescription => "image-description"
  | linkContent => "link-content"
  | buttonContent => "button-content"
  | labelAssociation => "label-association"

/-- What the check looks for. -/
def description : Check → String
  | linkTarget => "Checks that <a> elements link somewhere"
  | imageDescription => "Checks that <img> elements carry an alt attribute"
  | linkContent => "Checks that <a> elements have content a screen reader can announce"
  | buttonContent => "Checks that <button> elements have text a screen reader can announce"
  | labelAssociation => "Checks that <label> elements wrap a control or name one with for"

/-- The check with this name. -/
def ofName? (name : String) : Option Check :=
  all.find? (·.name = name)

/-- The HTML element that the check looks at. -/
def target : Check → String
  | linkTarget => "a"
  | imageDescription => "img"
  | linkContent => "a"
  | buttonContent => "button"
  | labelAssociation => "label"

/-- The rule that an element of the right kind breaks. -/
def brokenRule? (check : Check) (e : Element) : Option Rule :=
  match check with
  | linkTarget =>
    match e.tag.value? "href" with
    | none => some .missingLinkTarget
    | some href =>
      if trim href.toList = ['#'] && !e.actsAsButton then some .placeholderLinkTarget else none
  | imageDescription =>
    if (e.tag.value? "alt").isSome then none else some .missingImageDescription
  | linkContent =>
    if e.holdsText || e.holdsElement ["img"] || e.isFilled || e.isLabelled then none
    else some .missingLinkContent
  | buttonContent =>
    if e.holdsText || e.isFilled || e.isLabelled then none
    else some .missingButtonContent
  | labelAssociation =>
    if e.holdsElement ["input", "select", "textarea"] || (e.tag.value? "for").isSome then none
    else some .missingLabelAssociation

/-- The rule that an element breaks, if the check looks at it. -/
def verdict (check : Check) (e : Element) : Option Rule :=
  if e.isHtml check.target then check.brokenRule? e else none

/-- The elements at or below `root` that break a rule, in document order. -/
def offenders (check : Check) (root : Element) : List (Element × Rule) :=
  root.elements.filterMap fun e => (check.verdict e).map (e, ·)

end Check

end TemplateLint
