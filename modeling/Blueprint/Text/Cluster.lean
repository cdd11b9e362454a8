import Blueprint.Text.Cluster.Classes

/-! # Extended grapheme clusters

A cluster is what a reader takes for one character: a base with its marks, a
flag, a Hangul syllable, a chain of joined pictographs, or a consonant conjunct.
-/

namespace Blueprint.Text.Cluster

/-- The class of a character for cluster boundaries. -/
inductive Class where
  | carriageReturn
  | lineFeed
  | control
  | extend
  | joiner
  | spacingMark
  | prepend
  | regional
  | leadingJamo
  | vowelJamo
  | trailingJamo
  | openSyllable
  | closedSyllable
  | pictograph
  | other
deriving DecidableEq, Repr

/-- The code point of the first Hangul syllable. -/
def firstSyllable : Nat := 0xac00

/-- The code point of the last Hangul syllable. -/
def lastSyllable : Nat := 0xd7a3

/-- How many syllables share their leading consonant and vowel. -/
def trailingCount : Nat := 28

def classOf (c : Char) : Class :=
  if c = '\r' then .carriageReturn
  else if c = '\n' then .lineFeed
  else if controlSet.contains c then .control
  else if c.toNat = 0x200d then .joiner
  else if extendSet.contains c then .extend
  else if spacingMarkSet.contains c then .spacingMark
  else if prependSet.contains c then .prepend
  else if regionalSet.contains c then .regional
  else if leadingJamoSet.contains c then .leadingJamo
  else if vowelJamoSet.contains c then .vowelJamo
  else if trailingJamoSet.contains c then .trailingJamo
  else if firstSyllable ≤ c.toNat ∧ c.toNat ≤ lastSyllable then
    if (c.toNat - firstSyllable) % trailingCount = 0 then .openSyllable else .closedSyllable
  else if pictographSet.contains c then .pictograph
  else .other

/-- How far a consonant conjunct has come. -/
inductive Conjunct where
  | none
  | consonant
  | linked
deriving DecidableEq, Repr

/-- How far a chain of pictographs has come. -/
inductive Chain where
  | none
  | pictograph
  | joined
deriving DecidableEq, Repr

/-- What the text read so far means for the next boundary. -/
structure State where
  /-- Class of the last character. -/
  last : Class
  /-- Whether an odd number of regional indicators ends the text. -/
  oddRegional : Bool
  conjunct : Conjunct
  chain : Chain
deriving DecidableEq, Repr

def Conjunct.next (s : Conjunct) (c : Char) : Conjunct :=
  if conjunctConsonantSet.contains c then .consonant
  else if conjunctLinkerSet.contains c then
    if s = .none then .none else .linked
  else if c.toNat = 0x200d ∨ (extendSet.contains c ∧ c.toNat ≠ 0x200c) then s
  else .none

def Chain.next (s : Chain) (k : Class) : Chain :=
  match k, s with
  | .pictograph, _ => .pictograph
  | .extend, .pictograph => .pictograph
  | .joiner, .pictograph => .joined
  | _, _ => .none

/-- The state after one character, given the state before it. -/
def State.next (s : State) (c : Char) : State where
  last := classOf c
  oddRegional := classOf c = .regional && !s.oddRegional
  conjunct := s.conjunct.next c
  chain := s.chain.next (classOf c)

/-- The state after the first character of a text. -/
def State.first (c : Char) : State :=
  State.next ⟨.other, false, .none, .none⟩ c

/-- Whether a cluster continues from the text read so far into `c`. -/
def State.joins (s : State) (c : Char) : Bool :=
  match s.last, classOf c with
  | .carriageReturn, .lineFeed => true
  | .carriageReturn, _ => false
  | .lineFeed, _ => false
  | .control, _ => false
  | _, .carriageReturn => false
  | _, .lineFeed => false
  | _, .control => false
  | _, .extend => true
  | _, .joiner => true
  | _, .spacingMark => true
  | .prepend, _ => true
  | .leadingJamo, .leadingJamo => true
  | .leadingJamo, .vowelJamo => true
  | .leadingJamo, .openSyllable => true
  | .leadingJamo, .closedSyllable => true
  | .openSyllable, .vowelJamo => true
  | .openSyllable, .trailingJamo => true
  | .vowelJamo, .vowelJamo => true
  | .vowelJamo, .trailingJamo => true
  | .closedSyllable, .trailingJamo => true
  | .trailingJamo, .trailingJamo => true
  | .regional, .regional => s.oddRegional
  | _, .pictograph => s.chain = .joined
  | _, _ => s.conjunct = .linked && conjunctConsonantSet.contains c

/-- The rest of the cluster that the text read so far ends with, then the clusters after it. -/
def splitAfter (s : State) : List Char → List Char × List (List Char)
  | [] => ([], [])
  | c :: rest =>
    let (cluster, more) := splitAfter (s.next c) rest
    if s.joins c then (c :: cluster, more) else ([], (c :: cluster) :: more)

/-- The clusters of a text, in order. -/
def split : List Char → List (List Char)
  | [] => []
  | c :: rest =>
    let (cluster, more) := splitAfter (State.first c) rest
    (c :: cluster) :: more

end Blueprint.Text.Cluster
