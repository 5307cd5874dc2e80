import ScenarioRunner.Proofs.Feature.Placement
import ScenarioRunner.Proofs.Text.Numeral

/-!
# Listings of trees

The address of a node is the path of child numbers that leads to it, so that a node stands as deep as its address is
long. Main statements: a walk visits every address of the tree once, in lexicographic order, and a listing has one entry
for each node of the walk, in the same order. What an entry shows can be read off it in one way only.
-/

namespace ScenarioRunner.Feature

open ScenarioRunner.Text

set_option autoImplicit false

/-! ## Addresses -/

def Node.below? : Node → List Nat → Option Node
  | n, [] => some n
  | n, i :: address => n.children[i]?.bind fun m => m.below? address

@[simp] theorem Node.below?_nil (n : Node) : n.below? [] = some n := rfl

@[simp] theorem Node.below?_cons (n : Node) (i : Nat) (address : List Nat) :
    n.below? (i :: address) = n.children[i]?.bind fun m => m.below? address := rfl

mutual

def Node.addresses : Node → List (List Nat)
  | .case _ => [[]]
  | .suite _ children => [] :: addressesFrom 0 children

/-- The addresses of nodes below a suite in which the first of them has the number. -/
def addressesFrom (number : Nat) : List Node → List (List Nat)
  | [] => []
  | n :: rest => n.addresses.map (number :: ·) ++ addressesFrom (number + 1) rest

end

/-- The addresses at which the walk of a tree finds its nodes, one after the other. -/
structure Suite.IsWalkedBy (s : Suite) (addresses : List (List Nat)) : Prop where
  increasing : addresses.Pairwise (· < ·)
  mem_iff : ∀ address, address ∈ addresses ↔ (s.node.below? address).isSome = true
  nodes : addresses.map s.node.below? = s.walk.map some

mutual

theorem Node.map_below?_addresses (n : Node) : n.addresses.map n.below? = n.walk.map some := by
  cases n with
  | case c => rfl
  | suite header children =>
    rw [Node.addresses, Node.walk, List.map_cons, List.map_cons, Node.below?_nil]
    exact congrArg (_ :: ·) (map_below?_addressesFrom header [] children)

/-- The children are followed from left to right, those before the first one already behind. -/
theorem map_below?_addressesFrom (header : Header) (before nodes : List Node) :
    (addressesFrom before.length nodes).map (Node.suite header (before ++ nodes)).below? =
      (walkAll nodes).map some := by
  cases nodes with
  | nil => rfl
  | cons n rest =>
    have hFirst : (Node.suite header (before ++ n :: rest)).below? ∘ (before.length :: ·) = n.below? := by
      funext address
      simp [Node.children]
    have hRest := map_below?_addressesFrom header (before ++ [n]) rest
    rw [List.append_assoc, List.singleton_append, List.length_append, List.length_singleton] at hRest
    rw [addressesFrom, walkAll, List.map_append, List.map_append, List.map_map, hFirst, n.map_below?_addresses, hRest]

end

theorem Node.length_addresses (n : Node) : n.addresses.length = n.walk.length := by
  simpa using congrArg List.length n.map_below?_addresses

theorem mem_addressesFrom {number : Nat} {nodes : List Node} {address : List Nat} :
    address ∈ addressesFrom number nodes ↔
      ∃ i n rest, address = (number + i) :: rest ∧ nodes[i]? = some n ∧ rest ∈ n.addresses := by
  induction nodes generalizing number with
  | nil => simp [addressesFrom]
  | cons first nodes ih =>
    rw [addressesFrom, List.mem_append, List.mem_map, ih]
    constructor
    · rintro (⟨rest, hRest, rfl⟩ | ⟨i, n, rest, rfl, hn, hRest⟩)
      · exact ⟨0, first, rest, rfl, rfl, hRest⟩
      · exact ⟨i + 1, n, rest, by rw [Nat.add_assoc, Nat.add_comm 1], hn, hRest⟩
    · rintro ⟨i, n, rest, rfl, hn, hRest⟩
      cases i with
      | zero =>
        cases hn
        exact .inl ⟨rest, hRest, rfl⟩
      | succ i => exact .inr ⟨i, n, rest, by rw [Nat.add_assoc, Nat.add_comm 1], hn, hRest⟩

theorem Node.mem_addresses_iff {n : Node} {address : List Nat} :
    address ∈ n.addresses ↔ (n.below? address).isSome = true := by
  induction address generalizing n with
  | nil => cases n <;> simp [Node.addresses]
  | cons i rest ih =>
    cases n with
    | case c => simp [Node.addresses, Node.children]
    | suite header children =>
      rw [Node.addresses, List.mem_cons, mem_addressesFrom, Node.below?_cons, Node.children]
      constructor
      · rintro (h | ⟨j, m, rest', hAddress, hm, hRest⟩)
        · cases h
        · rw [Nat.zero_add] at hAddress
          cases hAddress
          rw [hm, Option.bind_some]
          exact ih.mp hRest
      · intro h
        obtain ⟨m, hm⟩ := Option.isSome_iff_exists.mp (Option.isSome_of_isSome_bind h)
        rw [hm, Option.bind_some] at h
        exact .inr ⟨i, m, rest, by rw [Nat.zero_add], hm, ih.mpr h⟩

mutual

theorem Node.pairwise_addresses (n : Node) : n.addresses.Pairwise (· < ·) := by
  cases n with
  | case c => exact List.pairwise_singleton _ _
  | suite header children =>
    rw [Node.addresses, List.pairwise_cons]
    refine ⟨?_, pairwise_addressesFrom 0 children⟩
    intro address hAddress
    obtain ⟨i, -, rest, rfl, -⟩ := mem_addressesFrom.mp hAddress
    exact List.nil_lt_cons _ rest

theorem pairwise_addressesFrom (number : Nat) (nodes : List Node) : (addressesFrom number nodes).Pairwise (· < ·) := by
  cases nodes with
  | nil => exact List.Pairwise.nil
  | cons n rest =>
    rw [addressesFrom, List.pairwise_append, List.pairwise_map]
    refine ⟨?_, pairwise_addressesFrom (number + 1) rest, ?_⟩
    · exact n.pairwise_addresses.imp fun h => List.cons_lt_cons_iff.mpr (.inr ⟨rfl, h⟩)
    · intro first hFirst later hLater
      obtain ⟨below, -, rfl⟩ := List.mem_map.mp hFirst
      obtain ⟨i, -, others, rfl, -⟩ := mem_addressesFrom.mp hLater
      exact List.cons_lt_cons_iff.mpr (.inl (by omega))

end

theorem Suite.isWalkedBy_addresses (s : Suite) : s.IsWalkedBy s.node.addresses where
  increasing := s.node.pairwise_addresses
  mem_iff _ := Node.mem_addresses_iff
  nodes := s.node.map_below?_addresses

/-! ## Entries -/

inductive NodeKind where
  | feature
  | outline
  | scenario
deriving DecidableEq

def NodeKind.word : NodeKind → String
  | .feature => "Feature"
  | .outline => "Scenario Outline"
  | .scenario => "Scenario"

def Node.kind : Node → NodeKind
  | .case _ => .scenario
  | .suite header _ => if header.isOutline then .outline else .feature

/-- What one entry of a listing shows; its line is counted from one. -/
structure ListingEntry where
  steps : Nat
  kind : NodeKind
  name : String
  line : Nat
deriving DecidableEq

def ListingEntry.written (e : ListingEntry) : String :=
  String.join (List.replicate e.steps "  ") ++ e.kind.word ++ ": " ++ e.name ++ " (line " ++ toString e.line ++ ")"

/-- An indentation below zero is none. -/
def Node.entry (indent : Int) (n : Node) : ListingEntry :=
  ⟨indent.toNat, n.kind, n.name, n.span.start.line + 1⟩

theorem flatMap_blanks (steps : Nat) :
    (List.replicate steps "  ").flatMap String.toList = List.replicate (2 * steps) ' ' := by
  induction steps with
  | zero => rfl
  | succ steps ih =>
    rw [List.replicate_succ, List.flatMap_cons, ih]
    rfl

theorem ListingEntry.toList_written (e : ListingEntry) :
    e.written.toList = List.replicate (2 * e.steps) ' ' ++ (e.kind.word.toList ++ ": ".toList ++
      ((e.name.toList ++ [' ']) ++ '(' :: ("line ".toList ++ Nat.toDigits 10 e.line ++ [')']))) := by
  simp [ListingEntry.written, flatMap_blanks]

theorem Node.written_entry (indent : Int) (n : Node) :
    (n.entry indent).written = describeLine indent n.kind.word n.name n.span := by
  have hBlanks : (2 * indent).toNat = 2 * indent.toNat := by omega
  apply String.toList_injective
  rw [ListingEntry.toList_written, describeLine]
  simp [Node.entry, hBlanks]

/-! ### Reading an entry -/

theorem NodeKind.head?_word (k : NodeKind) (rest : List Char) :
    ∀ c ∈ (k.word.toList ++ ": ".toList ++ rest).head?, (c == ' ') = false := by
  cases k <;> simp [NodeKind.word]

theorem NodeKind.eq_and_eq_of_word_append {k l : NodeKind} {s t : List Char}
    (h : k.word.toList ++ ": ".toList ++ s = l.word.toList ++ ": ".toList ++ t) : k = l ∧ s = t := by
  cases k <;> cases l <;> simp_all [NodeKind.word]

theorem notMem_lineNote (line : Nat) : '(' ∉ "line ".toList ++ Nat.toDigits 10 line ++ [')'] := by
  have hDigits : '(' ∉ Nat.toDigits 10 line := fun hMem => absurd (isDigit_of_mem_toDigits hMem) (by decide)
  simp [hDigits]

/-- The blanks in front end at the kind, and the name ends before the last opening bracket, whatever it holds. -/
theorem ListingEntry.written_inj {e f : ListingEntry} : e.written = f.written ↔ e = f := by
  refine ⟨fun h => ?_, congrArg ListingEntry.written⟩
  have hText := congrArg String.toList h
  rw [e.toList_written, f.toList_written] at hText
  have hBlanks (steps : Nat) : ∀ c ∈ List.replicate (2 * steps) ' ', (c == ' ') = true := by simp
  have hRuns := congrArg (List.takeWhile (· == ' ')) hText
  rw [takeWhile_append (hBlanks _) (e.kind.head?_word _), takeWhile_append (hBlanks _) (f.kind.head?_word _)] at hRuns
  have hSteps : 2 * e.steps = 2 * f.steps := by simpa using congrArg List.length hRuns
  rw [hRuns] at hText
  obtain ⟨hKind, hRest⟩ := NodeKind.eq_and_eq_of_word_append (List.append_cancel_left hText)
  obtain ⟨hName, hLine⟩ := eq_and_eq_of_last_eq (notMem_lineNote _) (notMem_lineNote _) hRest
  have hNumber := congrArg numeralValue (List.append_cancel_left (List.append_cancel_right hLine))
  rw [numeralValue_toDigits, numeralValue_toDigits] at hNumber
  cases e
  cases f
  simp only [ListingEntry.mk.injEq]
  exact ⟨Nat.eq_of_mul_eq_mul_left (by decide) hSteps, hKind, String.toList_injective (List.append_cancel_right hName),
    hNumber⟩

/-! ## The entries of a listing -/

mutual

theorem Node.describe_eq (n : Node) (indent : Int) :
    n.describe indent =
      List.zipWith (fun address m => (m.entry (indent + address.length)).written) n.addresses n.walk := by
  cases n with
  | case c =>
    have hEntry : ((Node.case c).entry indent).written = describeLine indent "Scenario" c.name c.span :=
      (Node.case c).written_entry indent
    simp [Node.describe, Node.addresses, Node.walk, hEntry]
  | suite header children =>
    have hWord : (Node.suite header children).kind.word =
        if header.isOutline then "Scenario Outline" else "Feature" := by
      rw [Node.kind]
      split <;> rfl
    have hEntry : ((Node.suite header children).entry indent).written = describeLine indent
        (if header.isOutline then "Scenario Outline" else "Feature") header.name header.span := by
      rw [Node.written_entry, hWord, Node.name, Node.span]
    simp only [Node.describe, Node.addresses, Node.walk, List.zipWith_cons_cons, List.length_nil, Int.natCast_zero,
      Int.add_zero, hEntry, describeAll_eq 0 children]

/-- What stands below a suite is indented by one step more than the suite. -/
theorem describeAll_eq (number : Nat) (nodes : List Node) (indent : Int) :
    describeAll (indent + 1) nodes = List.zipWith (fun address m => (m.entry (indent + address.length)).written)
      (addressesFrom number nodes) (walkAll nodes) := by
  cases nodes with
  | nil => rfl
  | cons n rest =>
    have hLength : (n.addresses.map (number :: ·)).length = n.walk.length := by
      rw [List.length_map, n.length_addresses]
    have hDeeper (address : List Nat) :
        indent + 1 + (address.length : Int) = indent + ((number :: address).length : Int) := by
      rw [List.length_cons]
      omega
    rw [describeAll, addressesFrom, walkAll, List.zipWith_append hLength, List.zipWith_map_left, n.describe_eq,
      describeAll_eq (number + 1) rest]
    simp only [hDeeper]

end

/-- A listing shows each node of the walk, in the same order and as deep as its address is long, and says nothing else:
there are no other entries that it could have been written from. -/
theorem describe_eq_written_iff (s : Suite) (indent : Int) :
    ∃ addresses : List (List Nat), s.IsWalkedBy addresses ∧ (s.describe indent).length = s.walk.length ∧
      ∀ entries : List ListingEntry, s.describe indent = entries.map ListingEntry.written ↔
        entries = List.zipWith (fun address n => n.entry (indent + address.length)) addresses s.walk := by
  have hText : s.describe indent = (List.zipWith (fun address n => n.entry (indent + address.length)) s.node.addresses
      s.walk).map ListingEntry.written := by
    rw [List.map_zipWith]
    exact s.node.describe_eq indent
  refine ⟨s.node.addresses, s.isWalkedBy_addresses, ?_, ?_⟩
  · rw [hText, List.length_map, List.length_zipWith, s.node.length_addresses]
    exact Nat.min_self _
  · intro entries
    rw [hText, List.map_inj_right fun e f h => ListingEntry.written_inj.mp h]
    exact eq_comm

/-- Above the margin nothing is indented. -/
example : (Suite.mk ⟨"f", "F", "u", ⟨⟨0, 0⟩, ⟨0, 1⟩⟩, 0, false⟩ [.suite ⟨"o", "O", "u", ⟨⟨2, 0⟩, ⟨2, 1⟩⟩, 0, true⟩
    [.case ⟨"r", "R", "u", ⟨⟨5, 0⟩, ⟨5, 1⟩⟩, ⟨2, 1⟩, 0, false, "O"⟩]]).describe (-1) =
    ["Feature: F (line 1)", "Scenario Outline: O (line 3)", "  Scenario: R (line 6)"] := by decide

end ScenarioRunner.Feature
