import PathBinding.Session

/-!
Views with fields that between them use every feature of a declaration. The behaviour of such a view follows from its
declaration: it has one field for each parameter.
-/

set_option autoImplicit false
set_option relaxedAutoImplicit false

namespace PathBinding

namespace Gallery

def threadView : TypeSpec := .ofFields
  { owner := "ThreadView"
    parameters := [{ name := "id", kind := .integer }, { name := "message", kind := .long },
      { name := "mode", kind := .string }]
    patterns := [{ pattern := "thread/:id[/:message]" }, { pattern := "thread/:id/reply", query := ["mode=:mode"] }]
    noMatch := some (.rerouteToView "ThreadIndex") } true

def documentView : TypeSpec := .ofFields
  { owner := "Document"
    parameters := [{ name := "key", kind := .uuid }, { name := "rev", kind := .string, regex := some "r[0-9]+" }]
    patterns := [{ pattern := "doc/:key/:rev" }, { pattern := "doc/:key" }]
    noMatch := some .ignore } false

def tabView : TypeSpec := .ofFields
  { owner := "TabView"
    parameters := [{ name := "tab", kind := .string, dynamic := true }]
    patterns := [{ pattern := "settings/:tab" }]
    noMatch := some (.rerouteToError "Forbidden") } false

def demoView : TypeSpec := .ofFields
  { owner := "DemoView"
    parameters := [{ name := "long", kind := .long }, { name := "text", kind := .string },
      { name := "mode", kind := .string }]
    patterns := [{ pattern := ":long" }, { pattern := ":text" }, { pattern := ":mode:test|production:/:text[/:long]" },
      { pattern := "debug/:text:.*:" }] } true

def duplicateView : TypeSpec := .ofFields
  { owner := "DuplicateView"
    parameters := [{ name := "id", kind := .integer }, { name := "id", kind := .string }]
    patterns := [{ pattern := ":id" }] } false

def typoView : TypeSpec := .ofFields
  { owner := "TypoView"
    parameters := [{ name := "username", kind := .string }]
    patterns := [{ pattern := "user/:name" }] } false

def flagView : TypeSpec := .ofFields
  { owner := "FlagView"
    parameters := [{ name := "on", kind := .boolean }, { name := "n", kind := .integer, regex := some "[-+0-9]+" },
      { name := "key", kind := .uuid, regex := some "[^&]*" }, { name := "q", kind := .string }]
    patterns := [{ pattern := "flag/:on[/:n]", query := ["key=:key", "q=:q"] },
      { pattern := "any/:q", query := ["n=:n:[0-9a-z]+:"] }] } true

/-- The views by name. -/
def types : List (TypeKey × TypeSpec) :=
  [(.derived "ThreadView", threadView), (.derived "DocumentView", documentView), (.derived "TabView", tabView),
    (.derived "DemoView", demoView), (.derived "DuplicateView", duplicateView), (.derived "TypoView", typoView),
    (.derived "FlagView", flagView)]

end Gallery

end PathBinding
