import DataClasses.Proofs.Declaration.Balance
import DataClasses.Proofs.Declaration.OneClass

/-!
# Blocks in each other

Namespaces or classes in each other, each with a block. Those for which there is room are read, and
the first one beyond is passed over with all inside of it, up to the brace that closes it. So the
ones around it end where they should, and nothing else is reported.
-/

set_option autoImplicit false

namespace DataClasses

open Identifier (IsName isKeyword)
open Parse (openBrace closeBrace)
open Token (before scan Balanced EndsName)

def nestedText (word : String) (names : List String) : String :=
  names.foldr (fun name inside => word ++ " " ++ name ++ " \x7b " ++ inside ++ "\x7d ") ""

namespace Token

variable {n : Nat} {word : String} {names : List String}

def blocks (n : Nat) (word : String) : List String → List Token
  | [] => []
  | name :: names =>
    .ofWord n word :: .ofWord n name :: .ofMark n '\x7b' :: (blocks n word names ++ [.ofMark n '\x7d'])

theorem scan_blocks (hword : IsName word) (hnames : ∀ name ∈ names, IsName name) (n : Nat)
    (rest : List Char) :
    ∀ fresh, ∃ fresh', scan n fresh ((nestedText word names).toList ++ rest) =
      before (blocks n word names) (scan n fresh' rest) := by
  induction names generalizing rest with
  | nil => exact fun fresh => ⟨fresh, rfl⟩
  | cons name names ih =>
    intro fresh
    have htext : (nestedText word (name :: names)).toList ++ rest = word.toList ++ ' ' :: (name.toList ++
        ' ' :: '\x7b' :: ' ' :: ((nestedText word names).toList ++ '\x7d' :: ' ' :: rest)) := by
      simp [nestedText]
    obtain ⟨inside, hinside⟩ :=
      ih (fun x hx => hnames x (List.mem_cons_of_mem name hx)) ('\x7d' :: ' ' :: rest)
      false
    refine ⟨false, ?_⟩
    rw [htext, scan_word n fresh hword (endsName_cons (by decide) _), scan_space,
      scan_word n false (hnames name List.mem_cons_self) (endsName_cons (by decide) _), scan_space,
      scan_mark n false (by decide), scan_space, hinside, scan_mark n inside (by decide), scan_space]
    simp only [before_before, List.cons_append, List.nil_append]
    rfl

theorem blocks_balanced (n : Nat) (word : String) (names : List String) :
    Balanced (·.isMark openBrace) (·.isMark closeBrace) 0 (blocks n word names) := by
  induction names with
  | nil => exact balanced_nil
  | cons name names ih =>
    have hblock : Balanced (·.isMark openBrace) (·.isMark closeBrace) 0
        (.ofMark n '\x7b' :: (blocks n word names ++ [.ofMark n '\x7d'])) :=
          ih.wrap ⟨rfl, rfl⟩ ⟨rfl, rfl⟩
    exact (hblock.cons rfl).cons rfl

end Token

namespace Parse

variable {e l n room : Nat} {r : List Diagnostic} {enclosed : Bool} {name : String} {names : List String}
  {t u : Token} {ts us : List Token} {c : Cursor}

def excess (n room levels : Nat) : List Diagnostic := if levels ≤ room then [] else [Fault.tooDeep.onLine n]

@[simp] theorem excess_zero (n room : Nat) : excess n room 0 = [] := rfl

@[simp] theorem excess_succ (n room levels : Nat) :
    excess n (room + 1) (levels + 1) = excess n room levels := by
  simp [excess]

theorem excess_reverse (n room levels : Nat) : (excess n room levels).reverse = excess n room levels := by
  rw [excess]
  split
  · rfl
  · rfl

theorem passed_word (word : String) :
    passed 0 ⟨.ofWord n word :: ts, e, l, r⟩ = (.again 0, ⟨ts, e, n, r⟩) := rfl

theorem passed_block (hts : Balanced (·.isMark openBrace) (·.isMark closeBrace) 0 ts)
    (hus : ((Cursor.mk us e n r).ahead 0).isMark "=" = false) :
    passed 0 ⟨.ofMark n '\x7b' :: (ts ++ .ofMark n '\x7d' :: us), e, l, r⟩ =
      (.done (), ⟨us, e, n, r⟩) := by
  have hmarks : (Token.ofMark n '\x7b').isDone = false ∧ (Token.ofMark n '\x7b').isMark ";" = false ∧
      (Token.ofMark n '\x7b').isMark closeBrace = false ∧ (Token.ofMark n '\x7b').isMark openBrace = true :=
    ⟨rfl, rfl, rfl, rfl⟩
  have hskip : skipBlock ⟨.ofMark n '\x7b' :: (ts ++ .ofMark n '\x7d' :: us), e, l, r⟩ =
      ((), ⟨us, e, n, r⟩) := skipBlock_balanced hts rfl
  rw [passed, bind_apply, current_apply]
  simp only [ahead_zero, hmarks.1, hmarks.2.1, hmarks.2.2.1, hmarks.2.2.2, Bool.and_false, Bool.and_true,
    Bool.false_eq_true, beq_self_eq_true, if_false, if_true]
  rw [bind_apply, hskip, bind_apply, atMark_apply]
  simp only [hus]
  rfl

/-- Words and a block are passed over as one member. -/
theorem skipMember_block (words : List String)
    (hts : Balanced (·.isMark openBrace) (·.isMark closeBrace) 0 ts)
    (hus : ((Cursor.mk us e n r).ahead 0).isMark "=" = false) :
    skipMember ⟨words.map (.ofWord n) ++ .ofMark n '\x7b' :: (ts ++ .ofMark n '\x7d' :: us), e, l, r⟩ =
      ((), ⟨us, e, n, r⟩) := by
  rw [skipMember]
  induction words generalizing l with
  | nil => exact loop_done (passed_block hts hus)
  | cons word words ih =>
    rw [List.map_cons, List.cons_append, loop_again (passed_word word) (Nat.lt_succ_self _)]
    exact ih

def scopes (n : Nat) (names : List String) : List Declaration :=
  names.foldr (fun name inside => [.scope ⟨⟨[name], n⟩, [], false, n⟩ inside]) []

/-- Where the declarations of a namespace end: at a brace or, outside of all braces, with the text. -/
inductive EndsScope : Bool → List Token → Prop where
  | brace {u : Token} {us : List Token} (hu : u.isMark closeBrace = true) : EndsScope true (u :: us)
  | atEnd : EndsScope false []

theorem EndsScope.ahead_isMark (h : EndsScope enclosed us) {mark : String} (hne : closeBrace ≠ mark) :
    ((Cursor.mk us e l r).ahead 0).isMark mark = false := by
  cases h with
  | brace hu => exact Token.isMark_of_ne hu hne
  | atEnd => rfl

theorem EndsScope.declarations (h : EndsScope enclosed us) (inner : Inner) (acc : List Declaration) :
    loop id (declaration inner enclosed) acc ⟨us, e, l, r⟩ = (acc, ⟨us, e, l, r⟩) := by
  refine loop_done ?_
  cases h with
  | @brace u us hu =>
    rw [declaration, bind_apply, get_apply]
    simp only [ahead_zero, Token.isDone_of_isMark hu, hu]
    rfl
  | atEnd => rfl

theorem dottedName_one (hname : isKeyword name = false) :
    dottedName ⟨.ofWord n name :: .ofMark n '\x7b' :: ts, e, l, r⟩ =
      (⟨[name], n⟩, ⟨.ofMark n '\x7b' :: ts, e, n, r⟩) := by
  have hspelled : dottedName
        ⟨Atom.tokens n (ClassTree.dottedAtoms [name]) ++ .ofMark n '\x7b' :: ts, e, l, r⟩ =
      (⟨[name], n⟩, ⟨.ofMark n '\x7b' :: ts, e, n, r⟩) :=
    dottedName_spelled (List.cons_ne_nil name []) (by simpa using hname) rfl
  rwa [tokens_dottedAtoms] at hspelled

theorem blocks_cons (n : Nat) (word name : String) (names : List String) (us : List Token) :
    Token.blocks n word (name :: names) ++ us =
      .ofWord n word :: .ofWord n name :: .ofMark n '\x7b' ::
        (Token.blocks n word names ++ .ofMark n '\x7d' :: us) := by
  simp [Token.blocks]

/-- A namespace beyond the room is reported and keeps its name. -/
theorem scope_tooDeep (hname : isKeyword name = false) (names : List String) (h : EndsScope enclosed us) :
    scope 0 ⟨Token.blocks n "namespace" (name :: names) ++ us, e, l, r⟩ =
      (.scope ⟨⟨[name], n⟩, [], false, n⟩ [], ⟨us, e, n, Fault.tooDeep.onLine n :: r⟩) := by
  have hskip : skipMember
        ⟨.ofMark n '\x7b' :: (Token.blocks n "namespace" names ++ .ofMark n '\x7d' :: us), e, n,
          Fault.tooDeep.onLine n :: r⟩ =
      ((), ⟨us, e, n, Fault.tooDeep.onLine n :: r⟩) :=
    skipMember_block [] (Token.blocks_balanced n "namespace" names) (h.ahead_isMark (by decide))
  rw [blocks_cons, scope, bind_apply, advance_apply, bind_apply, dottedName_one hname, bind_apply,
    report_apply, bind_apply]
  dsimp only [Token.ofWord]
  rw [hskip, bind_apply, eatMark_of_ahead (h.ahead_isMark (by decide))]
  rfl

theorem imports_none (type : Parse (Option TypeExpr)) (hc : c.atImport = false) : imports type c = ([], c) :=
  loop_done (nextImport_done type [] hc)

/-- A namespace for which there is room is read with what stands in it. -/
theorem scope_read_block (hname : isKeyword name = false) {ds : List Declaration} {r' : List Diagnostic}
    (himport : (Cursor.mk (ts ++ .ofMark n '\x7d' :: us) e n r).atImport = false)
    (hinside : loop id (declaration ⟨typeExpr room, typeDecl room, scope room⟩ true) []
      ⟨ts ++ .ofMark n '\x7d' :: us, e, n, r⟩ = (ds, ⟨.ofMark n '\x7d' :: us, e, n, r'⟩))
    (h : EndsScope enclosed us) :
    scope (room + 1) ⟨.ofWord n "namespace" :: .ofWord n name :: .ofMark n '\x7b' ::
        (ts ++ .ofMark n '\x7d' :: us), e, l, r⟩ =
      (.scope ⟨⟨[name], n⟩, [], false, n⟩ ds, ⟨us, e, n, r'⟩) := by
  have hclose : (Token.ofMark n '\x7d').isMark closeBrace = true := rfl
  rw [scope, bind_apply, advance_apply, bind_apply, dottedName_one hname, scopeBody_brace, bind_apply,
    imports_none _ himport, bind_apply, declarations, hinside, bind_apply, expectMark_of _ hclose, bind_apply]
  dsimp only [Token.ofMark]
  rw [eatMark_of_ahead (h.ahead_isMark (by decide))]
  rfl

theorem EndsScope.atImport_blocks (h : EndsScope enclosed us) {word : String}
    (hword : word ≠ "using" ∧ word ≠ "global") (names : List String) :
    (Cursor.mk (Token.blocks n word names ++ us) e l r).atImport = false := by
  cases names with
  | nil =>
    cases h with
    | brace hu => simp [Token.blocks, Cursor.atImport, Token.isWord_of_isMark hu]
    | atEnd => rfl
  | cons name names => simp [blocks_cons, Cursor.atImport, Token.ofWord, Token.isWord, hword]

/-- Namespaces in each other are read up to the first one beyond the room. -/
theorem declarations_scopes (hnames : ∀ name ∈ names, isKeyword name = false) (room : Nat)
    (h : EndsScope enclosed us) :
    loop id (declaration ⟨typeExpr room, typeDecl room, scope room⟩ enclosed) []
        ⟨Token.blocks n "namespace" names ++ us, e, n, r⟩ =
      (scopes n (names.take (room + 1)), ⟨us, e, n, excess n room names.length ++ r⟩) := by
  induction names generalizing room enclosed us r with
  | nil => exact h.declarations _ []
  | cons name names ih =>
    have hname := hnames name List.mem_cons_self
    have hinside (room : Nat) (r : List Diagnostic) :
        loop id (declaration ⟨typeExpr room, typeDecl room, scope room⟩ true) []
            ⟨Token.blocks n "namespace" names ++ .ofMark n '\x7d' :: us, e, n, r⟩ =
          (scopes n (names.take (room + 1)),
            ⟨.ofMark n '\x7d' :: us, e, n, excess n room names.length ++ r⟩) :=
      ih (fun x hx => hnames x (List.mem_cons_of_mem name hx)) room (.brace rfl)
    have hscope : scope room ⟨Token.blocks n "namespace" (name :: names) ++ us, e, n, r⟩ =
        (.scope ⟨⟨[name], n⟩, [], false, n⟩ (scopes n (names.take room)),
          ⟨us, e, n, excess n room (names.length + 1) ++ r⟩) := by
      cases room with
      | zero => exact scope_tooDeep hname names h
      | succ room =>
        rw [blocks_cons, excess_succ]
        exact scope_read_block hname (EndsScope.atImport_blocks (.brace rfl) (by decide) names)
          (hinside room r) h
    have hround : declaration ⟨typeExpr room, typeDecl room, scope room⟩ enclosed []
        ⟨Token.blocks n "namespace" (name :: names) ++ us, e, n, r⟩ =
          (.again (scopes n ((name :: names).take (room + 1))),
            ⟨us, e, n, excess n room (names.length + 1) ++ r⟩) := by
      rw [blocks_cons] at hscope ⊢
      rw [declaration_scope, map_apply]
      dsimp only
      rw [hscope]
      rfl
    have hless : us.length < (Token.blocks n "namespace" (name :: names) ++ us).length := by
      simp only [blocks_cons, List.length_append, List.length_cons]
      omega
    rw [loop_again hround hless, h.declarations]
    rfl

def plainHead (n : Nat) (name : String) : TypeHead := ⟨.plainClass, name, [], [], [], [], [], n⟩

def classes (n : Nat) (names : List String) (inside : List Member) : List Member :=
  names.foldr (fun name members => [.nested (plainHead n name) members]) inside

def nameless (n room levels : Nat) : List Member :=
  if levels ≤ room then [] else [.nested (plainHead n "") []]

@[simp] theorem nameless_zero (n room : Nat) : nameless n room 0 = [] := rfl

@[simp] theorem nameless_succ (n room levels : Nat) :
    nameless n (room + 1) (levels + 1) = nameless n room levels := by
  simp [nameless]

theorem member_class (type : Parse (Option TypeExpr)) (nested : Leading → Parse (TypeHead × List Member))
    (typeName : String) :
    member type nested typeName ⟨.ofWord n "class" :: ts, e, l, r⟩ =
      ((fun x => some (.nested x.1 x.2)) <$> nested ⟨[], []⟩ : Parse (Option Member))
        ⟨.ofWord n "class" :: ts, e, l, r⟩ := by
  have hat : (Cursor.mk (.ofWord n "class" :: ts) e l r).atTypeWord = true := rfl
  rw [member, bind_apply, leading_plain rfl class_atModifier, bind_apply, get_apply]
  simp only [hat, if_true]
  rfl

/-- A class beyond the room is reported and passed over. -/
theorem typeDecl_tooDeep (names : List String) (us : List Token) :
    typeDecl 0 ⟨[], []⟩ ⟨Token.blocks n "class" (name :: names) ++ .ofMark n '\x7d' :: us, e, l, r⟩ =
      ((plainHead n "", []), ⟨.ofMark n '\x7d' :: us, e, n, Fault.tooDeep.onLine n :: r⟩) := by
  have hskip : skipMember ⟨.ofWord n "class" :: .ofWord n name :: .ofMark n '\x7b' ::
      (Token.blocks n "class" names ++ .ofMark n '\x7d' :: .ofMark n '\x7d' :: us), e, l,
        Fault.tooDeep.onLine n :: r⟩ =
          ((), ⟨.ofMark n '\x7d' :: us, e, n, Fault.tooDeep.onLine n :: r⟩) :=
    skipMember_block ["class", name] (Token.blocks_balanced n "class" names) rfl
  rw [blocks_cons, typeDecl]
  dsimp only
  rw [bind_apply, current_apply, bind_apply, report_apply, bind_apply]
  dsimp only [ahead_zero, Token.ofWord] at hskip ⊢
  rw [hskip, bind_apply, eatMark_not rfl]
  rfl

/-- Classes in each other are read up to the first one beyond the room. -/
theorem members_classes (hnames : ∀ name ∈ names, isKeyword name = false) (room : Nat) (typeName : String)
    (us : List Token) :
    members (member (typeExpr room) (typeDecl room) typeName)
        ⟨Token.blocks n "class" names ++ .ofMark n '\x7d' :: us, e, n, r⟩ =
      (classes n (names.take room) (nameless n room names.length),
        ⟨.ofMark n '\x7d' :: us, e, n, excess n room names.length ++ r⟩) := by
  induction names generalizing room typeName us r with
  | nil =>
    have hclose : (Token.ofMark n '\x7d').isMark closeBrace = true := rfl
    rw [List.take_nil, List.length_nil, nameless_zero, excess_zero]
    exact members_close _ hclose []
  | cons name names ih =>
    have hname := hnames name List.mem_cons_self
    have hlength : us.length < (Token.ofWord n name :: .ofMark n '\x7b' ::
        (Token.blocks n "class" names ++ .ofMark n '\x7d' :: .ofMark n '\x7d' :: us)).length := by
      simp only [List.length_cons, List.length_append]
      omega
    rw [blocks_cons]
    cases room with
    | zero =>
      refine members_one rfl rfl ?_ hlength rfl
      rw [member_class, map_apply, ← blocks_cons, typeDecl_tooDeep]
      rfl
    | succ room =>
      refine members_one rfl rfl ?_ hlength rfl
      have hinside := ih (r := r) (fun x hx => hnames x (List.mem_cons_of_mem name hx)) room name
        (.ofMark n '\x7d' :: us)
      have hread := typeDecl_members (n := n) (l := n) ⟨[], []⟩ name hinside rfl rfl
      rw [ofName_eq_ofWord hname] at hread
      rw [member_class, map_apply, hread, List.length_cons, excess_succ, nameless_succ]
      rfl

def outerClasses (n : Nat) (names : List String) (inside : List Member) : List Declaration :=
  match names with
  | [] => []
  | name :: names => [.type (plainHead n name) (classes n names inside)]

theorem declarations_classes (hnames : ∀ name ∈ names, isKeyword name = false) (room : Nat)
    (type : Parse (Option TypeExpr)) (scope : Parse Declaration) (us : List Token) :
    loop id (declaration ⟨type, typeDecl (room + 1), scope⟩ true) []
        ⟨Token.blocks n "class" names ++ .ofMark n '\x7d' :: us, e, n, r⟩ =
      (outerClasses n (names.take (room + 1)) (nameless n (room + 1) names.length),
        ⟨.ofMark n '\x7d' :: us, e, n, excess n (room + 1) names.length ++ r⟩) := by
  have hend : EndsScope true (.ofMark n '\x7d' :: us) := .brace rfl
  cases names with
  | nil => exact hend.declarations _ []
  | cons name names =>
    have hname := hnames name List.mem_cons_self
    have hinside := members_classes (e := e) (n := n) (r := r)
      (fun x hx => hnames x (List.mem_cons_of_mem name hx)) room name (.ofMark n '\x7d' :: us)
    have hread := typeDecl_members (n := n) (l := n) ⟨[], []⟩ name hinside rfl rfl
    rw [ofName_eq_ofWord hname] at hread
    have hround : declaration ⟨type, typeDecl (room + 1), scope⟩ true []
        ⟨Token.blocks n "class" (name :: names) ++ .ofMark n '\x7d' :: us, e, n, r⟩ =
          (.again (outerClasses n ((name :: names).take (room + 1)) (nameless n room names.length)),
            ⟨.ofMark n '\x7d' :: us, e, n, excess n room names.length ++ r⟩) := by
      rw [blocks_cons, declaration_bareClass, map_apply]
      dsimp only
      rw [hread]
      rfl
    have hless : (.ofMark n '\x7d' :: us).length <
        (Token.blocks n "class" (name :: names) ++ .ofMark n '\x7d' :: us).length := by
      simp only [blocks_cons, List.length_append, List.length_cons]
      omega
    rw [loop_again hround hless, hend.declarations, List.length_cons, excess_succ, nameless_succ]

end Parse
end DataClasses
