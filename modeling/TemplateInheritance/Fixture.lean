import TemplateInheritance.Loader

/-!
# Fixtures

Small template families, each with the template that it is entered by.
-/

namespace TemplateInheritance

/-- A named family of templates and the name of its entry. -/
structure Fixture where
  name : String
  entry : String
  templates : List Template

namespace Fixture

/-- A page with a title and a content block. -/
def basePage : Template :=
  ⟨"base.html",
    [.text "<title>", .named "title" [.text "Base title"], .text "</title>",
      .named "content" [.text "Base content"]]⟩

/-- A page that overrides the title of `basePage`. -/
def childPage : Template :=
  ⟨"child.html", [.extending "base.html", .named "title" [.text "Child title"]]⟩

/-- A child that overrides one of two blocks. -/
def twoLevel : Fixture := ⟨"two_level", "child.html", [basePage, childPage]⟩

/-- Three templates that each define the same block. -/
def threeLevel : Fixture :=
  ⟨"three_level", "grandchild.html",
    [basePage, childPage,
      ⟨"grandchild.html", [.extending "child.html", .named "title" [.text "Grandchild title"]]⟩]⟩

/-- A leaf that inherits a block which calls `super()` in the middle template. -/
def midBase : Fixture :=
  ⟨"mid_base", "leaf.html",
    [⟨"base.html", [.named "content" [.text "Base"]]⟩,
      ⟨"mid.html", [.extending "base.html", .named "content" [.text "Mid", .superCall]]⟩,
      ⟨"leaf.html", [.extending "mid.html"]⟩]⟩

/-- A root that calls `super()` in its own block. -/
def baseOnlySuper : Fixture :=
  ⟨"base_only_super", "base.html",
    [⟨"base.html", [.named "content" [.text "Base", .superCall]]⟩]⟩

/-- Two templates that extend each other. -/
def circular : Fixture :=
  ⟨"circular", "a.html",
    [⟨"a.html", [.extending "b.html"]⟩, ⟨"b.html", [.extending "a.html"]⟩]⟩

/-- A page whose parent the context names. -/
def dynamicLayout : Fixture :=
  ⟨"dynamic_layout", "page.html",
    [⟨"wide.html", [.text "[wide]", .named "content" [.text "wide default"]]⟩,
      ⟨"narrow.html", [.text "[narrow]", .named "content" [.text "narrow default"]]⟩,
      ⟨"page.html",
        [.leaf (.extendsFrom (.var "layout") none), .named "content" [.text "Page"]]⟩]⟩

/-- All fixtures. -/
def all : List Fixture :=
  [twoLevel, threeLevel, midBase, baseOnlySuper, circular, dynamicLayout]

/-- The fixture of that name. -/
def find? (name : String) : Option Fixture := all.find? (·.name = name)

/-- What is said of a template that the fixture does not have. -/
def missingText (fixture : Fixture) (name : String) : String :=
  "fixture '" ++ fixture.name ++ "' has no template '" ++ name ++ "': " ++
    (LoadError.notFound name).message

end Fixture

end TemplateInheritance
