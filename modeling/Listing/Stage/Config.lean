import Listing.Stage.Context

namespace Listing

/-!
# Configuration

* `Config` — what holds for all requests: page size, stages, hooks and the order of work;
* `Options` — what one call sets: repository, hooks, stages and page size;
* `resolve` — the hook of a stage: of the call, else of the entity, else of the configuration, else
  the one of this library.
-/

/-- When parameters are normalised: all before any stage runs, or each just before its stage. -/
inductive FormatMode
  | twoPass
  | threaded
  deriving DecidableEq, Repr

/-- What holds for all requests. -/
structure Config where
  perPage : Int64
  stages : List String
  hooks : Dict Hook
  mode : FormatMode
  deriving DecidableEq, Repr

/-- What one call sets. -/
structure Options (m : Type → Type) where
  repository : Option (Repository m)
  hooks : Dict Hook
  stages : Option (List String)
  perPage : Option Int64

/-- The name of a mode in outlines. -/
def FormatMode.outline : FormatMode → String
  | twoPass => "TwoPass"
  | threaded => "Threaded"

namespace Config

/-- Ten rows a page, and the stages search, sort and paginate. -/
def standard : Config := ⟨10, ["search", "sort", "paginate"], [], .twoPass⟩

/-- The configuration with a page size of at least 1. -/
def withPerPage (c : Config) (n : Int64) : Config := { c with perPage := max n 1 }

/-- The configuration with other stages. -/
def withStages (c : Config) (stages : List String) : Config := { c with stages }

/-- The configuration with a hook for a stage. -/
def withHook (c : Config) (stage : String) (hook : Hook) : Config :=
  { c with hooks := Dict.insert stage hook c.hooks }

/-- The configuration with another mode. -/
def withMode (c : Config) (mode : FormatMode) : Config := { c with mode }

/-- The outline of a configuration; hooks are shown by stage. -/
def outline (c : Config) : String :=
  let hooks := c.hooks.mergeSort fun a b => decide (a.1 ≤ b.1)
  Text.Outline.record "RummageConfig"
    [("default_per_page", Number.intText c.perPage.toInt), ("stages", Text.Outline.texts c.stages),
      ("hooks", Text.Outline.list (hooks.map fun entry =>
        Text.Outline.pair (Text.quoted entry.1) (Text.quoted entry.2.name))),
      ("format_mode", c.mode.outline)]

end Config

namespace Options

variable {m : Type → Type}

/-- A call that sets nothing. -/
def none : Options m := ⟨.none, [], .none, .none⟩

/-- The call with a repository. -/
def withRepository (o : Options m) (r : Repository m) : Options m := { o with repository := some r }

/-- The call with a hook for a stage. -/
def withHook (o : Options m) (stage : String) (hook : Hook) : Options m :=
  { o with hooks := Dict.insert stage hook o.hooks }

/-- The call with other stages. -/
def withStages (o : Options m) (stages : List String) : Options m :=
  { o with stages := some stages }

/-- The call with a page size of at least 1. -/
def withPerPage (o : Options m) (n : Int64) : Options m := { o with perPage := some (max n 1) }

/-- The outline of the options of a call. -/
def outline (o : Options m) : String :=
  Text.Outline.record "Options"
    [("repo", Text.Outline.bool o.repository.isSome),
      ("hooks", Text.Outline.texts (Dict.sortedKeys o.hooks)),
      ("stages", Text.Outline.optional (o.stages.map Text.Outline.texts)),
      ("per_page", Text.Outline.optional (o.perPage.map fun n => Number.intText n.toInt))]

end Options

/-- The hook of a stage: of the call, else of the entity, else of the configuration, else the one
of this library. -/
def resolve {m : Type → Type} (stage : String) (options : Options m) (entity : Entity)
    (config : Config) : Except Error Hook :=
  match Dict.get? options.hooks stage <|> entity.hook? stage <|> Dict.get? config.hooks stage <|>
      (Builtin.forStage? stage).map .builtin with
  | some hook => .ok hook
  | none => .error (.unknownHook stage)

end Listing
