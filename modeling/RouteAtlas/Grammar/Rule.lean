import RouteAtlas.Grammar.Phrase
import RouteAtlas.Syntax.Node

/-!
# Rules

The rule of a phrase says which sequences of tokens and phrases the phrase stands for. A rule also
says how a sequence is read where the words alone leave it open: by the rank of what has been read,
by the side to which operators of one rank group, and last by weights. And it says how the parts
show in the syntax tree: as which kind, and in which role.
-/

namespace RouteAtlas.Grammar

open Syntax

/-- The tokens that are told by their form. -/
inductive Lexeme where
  | hashBang | characterReference | dashedName | doubleAttributeText | singleAttributeText
  | doubleText | singleText | escape | comment | regexBody | regexEnd | regexFlags | number | name
  | privateName | staticGet
deriving DecidableEq, Hashable, Repr, Inhabited

/-- The tokens that are told by what is expected and by what follows: the end of a line that ends a
statement, the text of a template, the mark of a conditional expression, a comment and a text of
markup, and the end of a function that has no body. -/
inductive Contextual where
  | lineEnd | templateText | ternaryMark | markupComment | markupText | signatureEnd
deriving DecidableEq, Hashable, Repr, Inhabited

/-- A token: a fixed text, one told by its form or by its surroundings, or the end of the source. -/
inductive Token where
  | text (text : String)
  | lexeme (lexeme : Lexeme)
  | contextual (contextual : Contextual)
  | finish
deriving DecidableEq, Hashable, Repr, Inhabited

/-- The named ranks. Which of two is higher is up to the orders of a grammar. -/
inductive Level where
  | member | templateCall | call | construct | prefixed | power | product | sum | shift | comparison
  | relation | equality | bitAnd | bitXor | bitOr | logicalAnd | logicalOr | ternary | assign
  | declaration | literal | object | unary | binary | instantiation | heritage | ambient
deriving DecidableEq, Hashable, Repr, Inhabited

/-- A rank: a number, or a level. -/
inductive Rank where
  | number (n : Int)
  | level (l : Level)
deriving DecidableEq, Hashable, Repr, Inhabited

/-- The side to which operators of one rank group. -/
inductive Side where
  | left | right
deriving DecidableEq, Hashable, Repr, Inhabited

/-- How a part shows in the tree when the rule overrides its own way: as a named node of some kind,
or as a mere mark. -/
inductive Guise where
  | node (kind : Kind)
  | mark
deriving DecidableEq, Hashable, Repr, Inhabited

/-- What a phrase stands for. -/
inductive Rule where
  /-- Nothing at all. -/
  | blank
  | token (token : Token)
  | phrase (phrase : Phrase)
  | sequence (first second : Rule)
  | either (first second : Rule)
  /-- One or more times. -/
  | many1 (rule : Rule)
  | ranked (rank : Rank) (rule : Rule)
  | sided (side : Side) (rule : Rule)
  /-- Of two readings of the same text the heavier one is taken. -/
  | weigh (weight : Int) (rule : Rule)
  | disguised (guise : Guise) (rule : Rule)
  /-- The part that is played in the whole. -/
  | part (role : Role) (rule : Rule)
deriving DecidableEq, Repr, Inhabited

instance : Coe String Rule := ⟨fun text => .token (.text text)⟩
instance : Coe Phrase Rule := ⟨.phrase⟩
instance : Coe Contextual Rule := ⟨fun c => .token (.contextual c)⟩
instance : Coe Lexeme Rule := ⟨fun l => .token (.lexeme l)⟩

namespace Rule

/-- One rule after the other. -/
def seq : List Rule → Rule
  | [] => blank
  | [r] => r
  | r :: rs => sequence r (seq rs)

/-- One of the rules. -/
def choice : List Rule → Rule
  | [] => blank
  | [r] => r
  | r :: rs => either r (choice rs)

/-- The rule or nothing. -/
def opt (r : Rule) : Rule := either r blank

/-- Any number of times. -/
def many (r : Rule) : Rule := opt (many1 r)

/-- One or more times, with a separator in between. -/
def separated (separator r : Rule) : Rule := seq [r, many (seq [separator, r])]

/-- One or more times, with commas in between. -/
def commaList1 (r : Rule) : Rule := separated "," r

/-- Any number of times, with commas in between. -/
def commaList (r : Rule) : Rule := opt (commaList1 r)

/-- Shown as a node of the kind. -/
def asKind (k : Kind) (r : Rule) : Rule := disguised (.node k) r

/-- Shown as a mark. -/
def asMark (r : Rule) : Rule := disguised .mark r

/-- With a level as rank. -/
def rank (l : Level) (r : Rule) : Rule := ranked (.level l) r

/-- With a number as rank. -/
def rankNumber (n : Int) (r : Rule) : Rule := ranked (.number n) r

/-- With a number as rank, grouping to a side. -/
def sidedNumber (side : Side) (n : Int) (r : Rule) : Rule := ranked (.number n) (sided side r)

/-- Grouping to the left. -/
def left (r : Rule) : Rule := sidedNumber .left 0 r

/-- Grouping to the right. -/
def right (r : Rule) : Rule := sidedNumber .right 0 r

/-- With a level as rank, grouping to the left. -/
def leftAt (l : Level) (r : Rule) : Rule := rank l (sided .left r)

/-- With a level as rank, grouping to the right. -/
def rightAt (l : Level) (r : Rule) : Rule := rank l (sided .right r)

/-- The tokens of a rule, in the order in which they stand in it. -/
def tokens : Rule → List Token
  | blank | phrase _ => []
  | token t => [t]
  | sequence a b | either a b => a.tokens ++ b.tokens
  | many1 r | ranked _ r | sided _ r | weigh _ r | disguised _ r | part _ r => r.tokens

end Rule

/-- Something that an order of ranks places: a level, or whatever a phrase has read. -/
inductive Placed where
  | level (l : Level)
  | phrase (p : Phrase)
deriving DecidableEq, Repr

instance : Coe Level Placed := ⟨.level⟩
instance : Coe Phrase Placed := ⟨.phrase⟩

/-- A grammar: the rules of its phrases, the first phrase being the whole program. -/
structure Definition where
  rules : List (Phrase × Rule)
  /-- The phrases that are put in place wherever a rule mentions them. -/
  inlined : List Phrase
  /-- Orders of ranks, each from the highest down. -/
  orders : List (List Placed)
  /-- The words that stand between or after operands. Like punctuation marks they are read without
  regard to what follows them. -/
  operatorWords : List String
  /-- The phrases at whose end a name is read whole, even where only an operator word could
  stand. -/
  boundaries : List Phrase
  /-- The phrases of which the same holds where a statement can end with them. -/
  statementBoundaries : List Phrase
  /-- The rules of typed sources are used where ends of lines and question marks are looked at. -/
  typed : Bool

end RouteAtlas.Grammar
