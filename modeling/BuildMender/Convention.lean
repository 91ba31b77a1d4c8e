import BuildMender.Text.Basic

/-!
# Project conventions

A plugin project agrees on a few conventions: the suffix of its headers, an include guard in each of
them, a directory for user interface code, and, in an implementation with signals and slots, an
include of the generated meta-object source. A deviation from one of them is a `Violation`. It is
advice: it names the convention, says what to do, and tells whether inserting a line of text is all
there is to do.

`Convention.Settings` says which conventions a project keeps and how they are spelled.
-/

namespace BuildMender

/-- The conventions a file can break. -/
inductive Convention where
  /-- Headers have the configured suffix. -/
  | headerSuffix
  /-- Headers carry an include guard. -/
  | includeGuard
  /-- User interface code lies in the directory for it. -/
  | interfaceDir
  /-- An implementation with signals and slots includes its meta-object source. -/
  | metaObjectInclude
deriving DecidableEq, Inhabited

namespace Convention

/-- All conventions. -/
def all : List Convention := [.headerSuffix, .includeGuard, .interfaceDir, .metaObjectInclude]

/-- Whether inserting a line of text mends the file; a rename or a move needs a person. -/
def autoFixable : Convention → Bool
  | .includeGuard | .metaObjectInclude => true
  | .headerSuffix | .interfaceDir => false

/-- The word for breaking a convention. -/
def label : Convention → Text
  | .headerSuffix => "wrong-header-suffix"
  | .includeGuard => "missing-guard"
  | .interfaceDir => "ui-outside-ui-dir"
  | .metaObjectInclude => "missing-meta-object-include"

/-- How a project spells its conventions, and which of them it keeps. -/
structure Settings where
  /-- The suffix of headers; a dot in front does not count. -/
  headerSuffix : Text := "hpp"
  /-- The line that guards a header against a second inclusion. -/
  includeGuard : Text := "#pragma once"
  /-- The directory for user interface code. -/
  interfaceDir : Text := "src/ui"
  /-- What a generated meta-object source's name begins with. -/
  metaObjectPrefix : Text := "moc_"
  /-- Whether the suffix of headers is checked. -/
  checkHeaderSuffix : Bool := true
  /-- Whether the guard is checked. -/
  checkIncludeGuard : Bool := true
  /-- Whether the place of user interface code is checked. -/
  checkInterfaceDir : Bool := true
  /-- Whether the meta-object include is checked. -/
  checkMetaObjectInclude : Bool := true
deriving DecidableEq, Inhabited

end Convention

/-- A deviation from a convention, with the advice that goes with it. -/
structure Violation where
  /-- The convention that is broken. -/
  kind : Convention
  /-- What to do about it. -/
  suggestion : Text
  /-- Whether inserting a line of text is all there is to do. -/
  autoFixable : Bool
deriving DecidableEq, Inhabited

/-- The violation of a convention with a given advice. -/
def Convention.violation (kind : Convention) (suggestion : Text) : Violation :=
  ⟨kind, suggestion, kind.autoFixable⟩

end BuildMender
