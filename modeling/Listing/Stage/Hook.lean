namespace Listing

/-!
# Hooks

What handles a stage of a request: one of the hooks of this library, or one that the application
supplies under a name.

* `Builtin` — the hooks of this library: strict and lenient search and sort, pages by offset and
  pages by key;
* `Hook` — a hook of this library or a custom one;
* `Hook.name` — its name in errors and outlines.
-/

/-- The hooks of this library. -/
inductive Builtin
  | search
  | lenientSearch
  | sort
  | lenientSort
  | offsetPage
  | keysetPage
  deriving DecidableEq, Repr

namespace Builtin

/-- The name of a hook in errors and outlines. -/
def name : Builtin → String
  | search => "search"
  | lenientSearch => "legacy_search"
  | sort => "sort"
  | lenientSort => "legacy_sort"
  | offsetPage => "paginate"
  | keysetPage => "keyset_paginate"

/-- The hooks of this library. -/
def all : List Builtin := [search, lenientSearch, sort, lenientSort, offsetPage, keysetPage]

/-- The hook of a name. -/
def ofName? (s : String) : Option Builtin := all.find? fun b => b.name == s

/-- The hook that handles a stage to which nothing else is assigned. -/
def forStage? : String → Option Builtin
  | "search" => some search
  | "sort" => some sort
  | "paginate" => some offsetPage
  | _ => none

end Builtin

/-- A hook of this library, or a custom one by its name. -/
inductive Hook
  | builtin (b : Builtin)
  | custom (label : String)
  deriving DecidableEq, Repr

namespace Hook

/-- The name of the hook in errors and outlines. -/
def name : Hook → String
  | builtin b => b.name
  | custom label => label

end Hook

end Listing
