import Mathlib.Data.List.Basic
import Mathlib.Tactic.Common

/-!
# Terms in Polish notation

A term of arrays and maps is written as a list of tokens: in front of its parts an array or a map
says how many of them there are. A reader takes the tokens one by one. It keeps a stack of the
arrays and maps that have begun, and it knows by itself when a term is complete.

`feed` is this reader on a list of tokens. It finds the terms again (`feed_tokens`), and what it
returns accounts for all the tokens that it has been given (`tokens_feed`).
-/

namespace Polish

variable {α β : Type*}

inductive Term (α : Type*) where
  | leaf (a : α) : Term α
  | array (ts : List (Term α)) : Term α
  | map (kvs : List (Term α × Term α)) : Term α

inductive Token (α : Type*) where
  | leaf (a : α)
  /-- so many terms follow -/
  | array (n : ℕ)
  /-- so many pairs of terms follow -/
  | map (n : ℕ)
  deriving DecidableEq

mutual

/-- The tokens of a term. -/
def Term.tokens : Term α → List (Token α)
  | .leaf a => [.leaf a]
  | .array ts => .array ts.length :: tokensAll ts
  | .map kvs => .map kvs.length :: tokensPairs kvs

def tokensAll : List (Term α) → List (Token α)
  | [] => []
  | t :: ts => t.tokens ++ tokensAll ts

def tokensPairs : List (Term α × Term α) → List (Token α)
  | [] => []
  | (k, v) :: kvs => k.tokens ++ (v.tokens ++ tokensPairs kvs)

end

/-! ### The reader -/

/-- An array or a map that has begun, and how many parts are still to come. -/
inductive Frame (α : Type*) where
  | item (done : List (Term α)) (rest : ℕ)
  | key (done : List (Term α × Term α)) (rest : ℕ)
  /-- the key of the next pair has been read -/
  | value (done : List (Term α × Term α)) (k : Term α) (rest : ℕ)

/-- What has come of a token. -/
inductive Progress (α : Type*) where
  | more (stack : List (Frame α))
  | complete (t : Term α)

/-- A term becomes a part of what is on top of the stack, which may be complete then. -/
def consume : Term α → List (Frame α) → Progress α
  | t, [] => .complete t
  | t, .item done rest :: stack =>
    if rest - 1 = 0 then consume (.array (done ++ [t])) stack
    else .more (.item (done ++ [t]) (rest - 1) :: stack)
  | t, .key done rest :: stack => .more (.value done t rest :: stack)
  | t, .value done k rest :: stack =>
    if rest - 1 = 0 then consume (.map (done ++ [(k, t)])) stack
    else .more (.key (done ++ [(k, t)]) (rest - 1) :: stack)

/-- An array or a map without parts is complete at once. -/
def read (stack : List (Frame α)) : Token α → Progress α
  | .leaf a => consume (.leaf a) stack
  | .array n => if n = 0 then consume (.array []) stack else .more (.item [] n :: stack)
  | .map n => if n = 0 then consume (.map []) stack else .more (.key [] n :: stack)

/-- The terms that are complete after some tokens, and what has begun. -/
def feed (stack : List (Frame α)) : List (Token α) → List (Term α) × List (Frame α)
  | [] => ([], stack)
  | token :: tokens =>
    match read stack token with
    | .more stack' => feed stack' tokens
    | .complete t => (t :: (feed [] tokens).1, (feed [] tokens).2)

/-- What the reader makes of the tokens that come after some progress. -/
def Progress.feed : Progress α → List (Token α) → List (Term α) × List (Frame α)
  | .more stack, tokens => Polish.feed stack tokens
  | .complete t, tokens => (t :: (Polish.feed [] tokens).1, (Polish.feed [] tokens).2)

lemma feed_cons (stack : List (Frame α)) (token : Token α) (tokens : List (Token α)) :
    feed stack (token :: tokens) = (read stack token).feed tokens := by
  rw [feed]
  cases read stack token <;> rfl

/-! ### The reader finds the terms -/

lemma read_array {n : ℕ} (hn : n ≠ 0) (stack : List (Frame α)) :
    read stack (.array n) = .more (.item [] n :: stack) := if_neg hn

lemma read_map {n : ℕ} (hn : n ≠ 0) (stack : List (Frame α)) :
    read stack (.map n) = .more (.key [] n :: stack) := if_neg hn

mutual

/-- After the tokens of a term the reader goes on as if it had been given the term. -/
lemma feed_term (t : Term α) (stack : List (Frame α)) (tokens : List (Token α)) :
    feed stack (t.tokens ++ tokens) = (consume t stack).feed tokens := by
  match t with
  | .leaf a =>
    rw [Term.tokens]
    exact feed_cons stack _ tokens
  | .array [] =>
    rw [Term.tokens, tokensAll]
    exact feed_cons stack _ tokens
  | .array (t :: ts) =>
    have hne : (t :: ts).length ≠ 0 := Nat.succ_ne_zero _
    rw [Term.tokens, List.cons_append, feed_cons, read_array hne, Progress.feed]
    exact feed_items (t :: ts) [] stack tokens (List.cons_ne_nil _ _)
  | .map [] =>
    rw [Term.tokens, tokensPairs]
    exact feed_cons stack _ tokens
  | .map (kv :: kvs) =>
    have hne : (kv :: kvs).length ≠ 0 := Nat.succ_ne_zero _
    rw [Term.tokens, List.cons_append, feed_cons, read_map hne, Progress.feed]
    exact feed_pairs (kv :: kvs) [] stack tokens (List.cons_ne_nil _ _)

lemma feed_items (ts done : List (Term α)) (stack : List (Frame α)) (tokens : List (Token α))
    (hne : ts ≠ []) : feed (.item done ts.length :: stack) (tokensAll ts ++ tokens) =
      (consume (.array (done ++ ts)) stack).feed tokens := by
  match ts with
  | [] => exact absurd rfl hne
  | [t] =>
    rw [tokensAll, tokensAll, List.append_nil, feed_term t]
    rfl
  | t :: t' :: ts =>
    have hrest : (t :: t' :: ts).length - 1 ≠ 0 := Nat.succ_ne_zero _
    have hnext := feed_items (t' :: ts) (done ++ [t]) stack tokens (List.cons_ne_nil _ _)
    rw [List.append_assoc, List.singleton_append] at hnext
    rw [tokensAll, List.append_assoc, feed_term t, consume, if_neg hrest]
    exact hnext

lemma feed_pairs (kvs done : List (Term α × Term α)) (stack : List (Frame α))
    (tokens : List (Token α)) (hne : kvs ≠ []) :
    feed (.key done kvs.length :: stack) (tokensPairs kvs ++ tokens) =
      (consume (.map (done ++ kvs)) stack).feed tokens := by
  match kvs with
  | [] => exact absurd rfl hne
  | [(k, v)] =>
    rw [tokensPairs, tokensPairs, List.append_nil, List.append_assoc, feed_term k, consume,
      Progress.feed, feed_term v]
    rfl
  | (k, v) :: kv :: kvs =>
    have hrest : ((k, v) :: kv :: kvs).length - 1 ≠ 0 := Nat.succ_ne_zero _
    have hnext := feed_pairs (kv :: kvs) (done ++ [(k, v)]) stack tokens (List.cons_ne_nil _ _)
    rw [List.append_assoc, List.singleton_append] at hnext
    rw [tokensPairs, List.append_assoc, List.append_assoc, feed_term k, consume, Progress.feed,
      feed_term v, consume, if_neg hrest]
    exact hnext

end

/-- The terms are found again, whatever follows them. -/
theorem feed_tokens (ts : List (Term α)) (tokens : List (Token α)) :
    feed [] (tokensAll ts ++ tokens) = (ts ++ (feed [] tokens).1, (feed [] tokens).2) := by
  induction ts with
  | nil => rfl
  | cons t ts ih =>
    rw [tokensAll, List.append_assoc, feed_term]
    show (t :: (feed [] (tokensAll ts ++ tokens)).1, _) = _
    rw [ih]
    rfl

/-! ### The reader loses nothing -/

lemma tokensAll_append (ts ts' : List (Term α)) :
    tokensAll (ts ++ ts') = tokensAll ts ++ tokensAll ts' := by
  induction ts with
  | nil => rfl
  | cons t ts ih => rw [List.cons_append, tokensAll, tokensAll, ih, List.append_assoc]

lemma tokensPairs_append (kvs kvs' : List (Term α × Term α)) :
    tokensPairs (kvs ++ kvs') = tokensPairs kvs ++ tokensPairs kvs' := by
  induction kvs with
  | nil => rfl
  | cons kv kvs ih =>
    rw [List.cons_append, tokensPairs, tokensPairs, ih, List.append_assoc, List.append_assoc]

/-- The tokens that have led to a frame. -/
def Frame.tokens : Frame α → List (Token α)
  | .item done rest => .array (done.length + rest) :: tokensAll done
  | .key done rest => .map (done.length + rest) :: tokensPairs done
  | .value done k rest => .map (done.length + rest) :: (tokensPairs done ++ k.tokens)

/-- The tokens that have led to a stack. -/
def stackTokens : List (Frame α) → List (Token α)
  | [] => []
  | f :: stack => stackTokens stack ++ f.tokens

/-- Something is still to come. -/
def Frame.Open : Frame α → Prop
  | .item _ rest => 0 < rest
  | .key _ rest => 0 < rest
  | .value _ _ rest => 0 < rest

/-- What has come of some tokens. -/
inductive Progress.From (tokens : List (Token α)) : Progress α → Prop where
  | more {stack : List (Frame α)} (open_all : ∀ f ∈ stack, f.Open)
      (eq : stackTokens stack = tokens) : Progress.From tokens (.more stack)
  | complete {t : Term α} (eq : t.tokens = tokens) : Progress.From tokens (.complete t)

lemma consume_from (t : Term α) (stack : List (Frame α)) (hopen : ∀ f ∈ stack, f.Open) :
    Progress.From (stackTokens stack ++ t.tokens) (consume t stack) := by
  induction stack generalizing t with
  | nil => exact .complete rfl
  | cons f stack ih =>
    obtain ⟨hfirst, hrest⟩ := List.forall_mem_cons.mp hopen
    rw [stackTokens, List.append_assoc]
    cases f with
    | item done rest =>
      have hpos : 0 < rest := hfirst
      have hlength : (done ++ [t]).length = done.length + 1 := List.length_append
      rw [consume]
      split_ifs with hlast
      · have hone : rest = 1 := by omega
        have hall := ih (.array (done ++ [t])) hrest
        rw [Term.tokens, tokensAll_append, tokensAll, tokensAll, List.append_nil, hlength] at hall
        rw [Frame.tokens, hone]
        exact hall
      · refine .more (List.forall_mem_cons.mpr ⟨Nat.pos_of_ne_zero hlast, hrest⟩) ?_
        have hsum : done.length + 1 + (rest - 1) = done.length + rest := by omega
        rw [stackTokens, Frame.tokens, Frame.tokens, tokensAll_append, tokensAll, tokensAll,
          List.append_nil, hlength, hsum, List.cons_append]
    | key done rest =>
      refine .more (List.forall_mem_cons.mpr ⟨hfirst, hrest⟩) ?_
      rw [stackTokens, Frame.tokens, Frame.tokens, List.cons_append]
    | value done k rest =>
      have hpos : 0 < rest := hfirst
      have hlength : (done ++ [(k, t)]).length = done.length + 1 := List.length_append
      have hpair : tokensPairs [(k, t)] = k.tokens ++ t.tokens := by
        rw [tokensPairs, tokensPairs, List.append_nil]
      rw [consume]
      split_ifs with hlast
      · have hone : rest = 1 := by omega
        have hall := ih (.map (done ++ [(k, t)])) hrest
        rw [Term.tokens, tokensPairs_append, hpair, hlength] at hall
        rw [Frame.tokens, hone, List.cons_append, List.append_assoc]
        exact hall
      · refine .more (List.forall_mem_cons.mpr ⟨Nat.pos_of_ne_zero hlast, hrest⟩) ?_
        have hsum : done.length + 1 + (rest - 1) = done.length + rest := by omega
        rw [stackTokens, Frame.tokens, Frame.tokens, tokensPairs_append, hpair, hlength, hsum,
          List.cons_append, List.append_assoc]

lemma read_from (token : Token α) (stack : List (Frame α)) (hopen : ∀ f ∈ stack, f.Open) :
    Progress.From (stackTokens stack ++ [token]) (read stack token) := by
  cases token with
  | leaf a => exact consume_from (.leaf a) stack hopen
  | array n =>
    rw [read]
    split_ifs with hn
    · subst hn
      exact consume_from (.array []) stack hopen
    · refine .more (List.forall_mem_cons.mpr ⟨Nat.pos_of_ne_zero hn, hopen⟩) ?_
      rw [stackTokens, Frame.tokens, tokensAll, List.length_nil, Nat.zero_add]
  | map n =>
    rw [read]
    split_ifs with hn
    · subst hn
      exact consume_from (.map []) stack hopen
    · refine .more (List.forall_mem_cons.mpr ⟨Nat.pos_of_ne_zero hn, hopen⟩) ?_
      rw [stackTokens, Frame.tokens, tokensPairs, List.length_nil, Nat.zero_add]

/-- The terms that are complete and what has begun account for all tokens. -/
theorem tokens_feed (tokens : List (Token α)) (stack : List (Frame α))
    (hopen : ∀ f ∈ stack, f.Open) : stackTokens stack ++ tokens =
      tokensAll (feed stack tokens).1 ++ stackTokens (feed stack tokens).2 := by
  induction tokens generalizing stack with
  | nil => exact List.append_nil _
  | cons token tokens ih =>
    have hfrom := read_from token stack hopen
    rw [feed_cons, ← List.singleton_append, ← List.append_assoc]
    cases hread : read stack token with
    | more stack' =>
      rw [hread] at hfrom
      obtain ⟨hopen', heq⟩ := hfrom
      rw [← heq]
      exact ih stack' hopen'
    | complete t =>
      rw [hread] at hfrom
      obtain ⟨⟩ | ⟨heq⟩ := hfrom
      have hrest := ih [] (List.forall_mem_nil _)
      rw [← heq, Progress.feed, tokensAll, List.append_assoc, ← hrest]
      rfl

/-! ### Other leaves -/

mutual

/-- Every leaf is replaced. -/
def Term.mapLeaves (f : α → β) : Term α → Term β
  | .leaf a => .leaf (f a)
  | .array ts => .array (mapAll f ts)
  | .map kvs => .map (mapPairs f kvs)

def mapAll (f : α → β) : List (Term α) → List (Term β)
  | [] => []
  | t :: ts => t.mapLeaves f :: mapAll f ts

def mapPairs (f : α → β) : List (Term α × Term α) → List (Term β × Term β)
  | [] => []
  | (k, v) :: kvs => (k.mapLeaves f, v.mapLeaves f) :: mapPairs f kvs

end

mutual

def Term.leaves : Term α → List α
  | .leaf a => [a]
  | .array ts => leavesAll ts
  | .map kvs => leavesPairs kvs

def leavesAll : List (Term α) → List α
  | [] => []
  | t :: ts => t.leaves ++ leavesAll ts

def leavesPairs : List (Term α × Term α) → List α
  | [] => []
  | (k, v) :: kvs => k.leaves ++ v.leaves ++ leavesPairs kvs

end

def Frame.mapLeaves (f : α → β) : Frame α → Frame β
  | .item done rest => .item (mapAll f done) rest
  | .key done rest => .key (mapPairs f done) rest
  | .value done k rest => .value (mapPairs f done) (k.mapLeaves f) rest

def Frame.leaves : Frame α → List α
  | .item done _ => leavesAll done
  | .key done _ => leavesPairs done
  | .value done k _ => leavesPairs done ++ k.leaves

def Progress.mapLeaves (f : α → β) : Progress α → Progress β
  | .more stack => .more (stack.map (Frame.mapLeaves f))
  | .complete t => .complete (t.mapLeaves f)

def Progress.leaves : Progress α → List α
  | .more stack => stack.flatMap Frame.leaves
  | .complete t => t.leaves

def Token.mapLeaves (f : α → β) : Token α → Token β
  | .leaf a => .leaf (f a)
  | .array n => .array n
  | .map n => .map n

section Leaves

variable {f g : α → β}

mutual

lemma mapLeaves_congr : (t : Term α) → (∀ a ∈ t.leaves, f a = g a) → t.mapLeaves f = t.mapLeaves g
  | .leaf a, h => congrArg Term.leaf (h a List.mem_cons_self)
  | .array ts, h => congrArg Term.array (mapAll_congr ts h)
  | .map kvs, h => congrArg Term.map (mapPairs_congr kvs h)

lemma mapAll_congr : (ts : List (Term α)) → (∀ a ∈ leavesAll ts, f a = g a) →
    mapAll f ts = mapAll g ts
  | [], _ => rfl
  | t :: ts, h => by
    rw [mapAll, mapAll, mapLeaves_congr t fun a ha => h a (List.mem_append_left _ ha),
      mapAll_congr ts fun a ha => h a (List.mem_append_right _ ha)]

lemma mapPairs_congr : (kvs : List (Term α × Term α)) → (∀ a ∈ leavesPairs kvs, f a = g a) →
    mapPairs f kvs = mapPairs g kvs
  | [], _ => rfl
  | (k, v) :: kvs, h => by
    have hk := mapLeaves_congr k fun a ha =>
      h a (List.mem_append_left _ (List.mem_append_left _ ha))
    have hv := mapLeaves_congr v fun a ha =>
      h a (List.mem_append_left _ (List.mem_append_right _ ha))
    rw [mapPairs, mapPairs, hk, hv, mapPairs_congr kvs fun a ha => h a (List.mem_append_right _ ha)]

end

lemma Frame.mapLeaves_congr (frame : Frame α) (h : ∀ a ∈ frame.leaves, f a = g a) :
    frame.mapLeaves f = frame.mapLeaves g := by
  cases frame with
  | item done rest => rw [mapLeaves, mapLeaves, mapAll_congr done h]
  | key done rest => rw [mapLeaves, mapLeaves, mapPairs_congr done h]
  | value done k rest =>
    rw [mapLeaves, mapLeaves, mapPairs_congr done fun a ha => h a (List.mem_append_left _ ha),
      Polish.mapLeaves_congr k fun a ha => h a (List.mem_append_right _ ha)]

lemma mapAll_append (ts ts' : List (Term α)) : mapAll f (ts ++ ts') = mapAll f ts ++ mapAll f ts' := by
  induction ts with
  | nil => rfl
  | cons t ts ih => rw [List.cons_append, mapAll, mapAll, ih, List.cons_append]

lemma mapPairs_append (kvs kvs' : List (Term α × Term α)) :
    mapPairs f (kvs ++ kvs') = mapPairs f kvs ++ mapPairs f kvs' := by
  induction kvs with
  | nil => rfl
  | cons kv kvs ih => rw [List.cons_append, mapPairs, mapPairs, ih, List.cons_append]

lemma leavesAll_append (ts ts' : List (Term α)) :
    leavesAll (ts ++ ts') = leavesAll ts ++ leavesAll ts' := by
  induction ts with
  | nil => rfl
  | cons t ts ih => rw [List.cons_append, leavesAll, leavesAll, ih, List.append_assoc]

lemma leavesPairs_append (kvs kvs' : List (Term α × Term α)) :
    leavesPairs (kvs ++ kvs') = leavesPairs kvs ++ leavesPairs kvs' := by
  induction kvs with
  | nil => rfl
  | cons kv kvs ih => simp only [List.cons_append, leavesPairs, ih, List.append_assoc]

/-- The reader does not look at the leaves. -/
lemma consume_mapLeaves (t : Term α) (stack : List (Frame α)) :
    consume (t.mapLeaves f) (stack.map (Frame.mapLeaves f)) = (consume t stack).mapLeaves f := by
  induction stack generalizing t with
  | nil => rfl
  | cons frame stack ih =>
    rw [List.map_cons]
    cases frame with
    | item done rest =>
      have happend : mapAll f (done ++ [t]) = mapAll f done ++ [t.mapLeaves f] :=
        mapAll_append done [t]
      rw [Frame.mapLeaves, consume, consume]
      split_ifs
      · have hall := ih (.array (done ++ [t]))
        rwa [Term.mapLeaves, happend] at hall
      · rw [Progress.mapLeaves, List.map_cons, Frame.mapLeaves, happend]
    | key done rest => rfl
    | value done k rest =>
      have happend : mapPairs f (done ++ [(k, t)]) =
          mapPairs f done ++ [(k.mapLeaves f, t.mapLeaves f)] := mapPairs_append done [(k, t)]
      rw [Frame.mapLeaves, consume, consume]
      split_ifs
      · have hall := ih (.map (done ++ [(k, t)]))
        rwa [Term.mapLeaves, happend] at hall
      · rw [Progress.mapLeaves, List.map_cons, Frame.mapLeaves, happend]

lemma read_mapLeaves (token : Token α) (stack : List (Frame α)) :
    read (stack.map (Frame.mapLeaves f)) (token.mapLeaves f) = (read stack token).mapLeaves f := by
  cases token with
  | leaf a => exact consume_mapLeaves (.leaf a) stack
  | array n =>
    rw [Token.mapLeaves, read, read]
    split_ifs
    · exact consume_mapLeaves (.array []) stack
    · rfl
  | map n =>
    rw [Token.mapLeaves, read, read]
    split_ifs
    · exact consume_mapLeaves (.map []) stack
    · rfl

/-- The leaves come from the term and from what has begun before. -/
lemma leaves_consume {a : α} (t : Term α) (stack : List (Frame α)) (h : a ∈ (consume t stack).leaves) :
    a ∈ t.leaves ∨ a ∈ stack.flatMap Frame.leaves := by
  induction stack generalizing t with
  | nil => exact .inl h
  | cons frame stack ih =>
    rw [List.flatMap_cons, List.mem_append]
    cases frame with
    | item done rest =>
      have hleaves : leavesAll (done ++ [t]) = leavesAll done ++ t.leaves := by
        rw [leavesAll_append, leavesAll, leavesAll, List.append_nil]
      rw [consume] at h
      split_ifs at h
      · rcases ih _ h with hmem | hmem
        · rw [Term.leaves, hleaves, List.mem_append] at hmem
          exact hmem.symm.imp_right .inl
        · exact .inr (.inr hmem)
      · rw [Progress.leaves, List.flatMap_cons, List.mem_append, Frame.leaves, hleaves,
          List.mem_append] at h
        rcases h with (hmem | hmem) | hmem
        · exact .inr (.inl hmem)
        · exact .inl hmem
        · exact .inr (.inr hmem)
    | key done rest =>
      rw [consume, Progress.leaves, List.flatMap_cons, List.mem_append, Frame.leaves,
        List.mem_append] at h
      rcases h with (hmem | hmem) | hmem
      · exact .inr (.inl hmem)
      · exact .inl hmem
      · exact .inr (.inr hmem)
    | value done k rest =>
      have hleaves : leavesPairs (done ++ [(k, t)]) = leavesPairs done ++ (k.leaves ++ t.leaves) := by
        rw [leavesPairs_append, leavesPairs, leavesPairs, List.append_nil]
      have hsplit : a ∈ leavesPairs done ++ (k.leaves ++ t.leaves) →
          a ∈ t.leaves ∨ a ∈ (Frame.value done k rest).leaves := by
        rw [← List.append_assoc, List.mem_append]
        exact Or.symm
      rw [consume] at h
      split_ifs at h
      · rcases ih _ h with hmem | hmem
        · rw [Term.leaves, hleaves] at hmem
          exact (hsplit hmem).imp_right .inl
        · exact .inr (.inr hmem)
      · rw [Progress.leaves, List.flatMap_cons, List.mem_append, Frame.leaves, hleaves] at h
        rcases h with hmem | hmem
        · exact (hsplit hmem).imp_right .inl
        · exact .inr (.inr hmem)

lemma leaves_read {a : α} (token : Token α) (stack : List (Frame α))
    (h : a ∈ (read stack token).leaves) : token = .leaf a ∨ a ∈ stack.flatMap Frame.leaves := by
  cases token with
  | leaf b =>
    refine (leaves_consume (.leaf b) stack h).imp_left fun hmem => ?_
    rw [List.mem_singleton.mp hmem]
  | array n =>
    rw [read] at h
    split_ifs at h
    · exact .inr ((leaves_consume (.array []) stack h).resolve_left List.not_mem_nil)
    · exact .inr h
  | map n =>
    rw [read] at h
    split_ifs at h
    · exact .inr ((leaves_consume (.map []) stack h).resolve_left List.not_mem_nil)
    · exact .inr h

end Leaves

end Polish
