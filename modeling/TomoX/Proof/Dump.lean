import TomoX.Spec.Dump
import TomoX.Proof.Bytes
import Mathlib.Data.List.Nodup

/-!
# The dump of one side, loop by loop

The inner loop dumps a queue entry by entry (`dumpOrders_eq`); one turn of the
outer loop dumps a level whose value decodes and fails on one that does not
(`dumpLevel_of_decode`, `dumpLevel_of_decode_none`); and the outer loop runs
the turns in order, ending at the first failure (`dumpLevels_ok`,
`dumpLevels_eq_ok_iff`, `dumpLevels_eq_error_iff`). Together they give the dump
of a side in closed form: `dumpTrie_eq_ok_iff` when it succeeds, and
`dumpTrie_eq_error_iff` when it fails, at the first level that does not decode.
Whether the loop succeeds, and what it holds up to order, do not depend on the
order of the levels (`dumpLevels_perm`).

From these:

* `dumpTrie_faithful`: when the book exists, every level decodes and the
  registry resolves each traversed key to 32 bytes, distinct keys to distinct
  bytes, the dump succeeds with a snapshot faithful to the side's trie;
* `dumpTrie_errors`: a dump fails when the book has no state object or a level
  does not decode, and, when every order holds an encoded volume, only then. A
  key with no preimage is no error: the snapshot's entry for its level, or the
  entry for its order within its level's, is at zero.
-/

namespace TomoX.Proof

open TomoX Rlp Spec

variable {self : TomoXStateDB} {side : Side} {orderBook : Hash}

/-- What the inner loop makes of a queue entry. -/
def orderOf (self : TomoXStateDB) (o : Bytes × Bytes) : Nat × Nat :=
  (setBytes (self.getKey o.1), setBytes o.2)

theorem dumpOrders_eq (self : TomoXStateDB) (it : List (Bytes × Bytes)) (orders : List (Nat × Nat)) :
    self.dumpOrders it orders = orders ++ it.map (orderOf self) := by
  induction it generalizing orders with
  | nil => simp [TomoXStateDB.dumpOrders]
  | cons o it ih => simp [TomoXStateDB.dumpOrders, ih, orderOf]

/-! ## Lists -/

theorem forall₂_map_left_of_mem {α β γ : Type} {R : α → β → Prop} {S : γ → β → Prop}
    {f : α → γ} {l₁ : List α} {l₂ : List β} (h : List.Forall₂ R l₁ l₂)
    (hRS : ∀ a ∈ l₁, ∀ b, R a b → S (f a) b) : List.Forall₂ S (l₁.map f) l₂ := by
  induction h with
  | nil => exact .nil
  | cons hab _ ih =>
    exact .cons (hRS _ (List.mem_cons_self _ _) _ hab)
      (ih fun a ha => hRS a (List.mem_cons_of_mem _ ha))

theorem map_eq_map_of_forall₂ {α β γ : Type} {R : α → β → Prop} {f : α → γ} {g : β → γ}
    {l₁ : List α} {l₂ : List β} (h : List.Forall₂ R l₁ l₂)
    (hR : ∀ a ∈ l₁, ∀ b, R a b → f a = g b) : l₁.map f = l₂.map g := by
  rw [← List.forall₂_eq_eq_eq, List.forall₂_map_right_iff]
  exact forall₂_map_left_of_mem h hR

theorem map_fst_eq_of_forall₂ {α β γ δ : Type} {R : α × γ → β × δ → Prop} {f : β → α}
    {l₁ : List (α × γ)} {l₂ : List (β × δ)} (h : List.Forall₂ R l₁ l₂)
    (hR : ∀ a b, R a b → a.1 = f b.1) : l₁.map Prod.fst = (l₂.map Prod.fst).map f := by
  induction h with
  | nil => rfl
  | cons hab _ ih => simp [hR _ _ hab, ih]

theorem exists_of_mem_forall₂ {α β : Type} {R : α → β → Prop} {l₁ : List α} {l₂ : List β}
    (h : List.Forall₂ R l₁ l₂) {a : α} (ha : a ∈ l₁) : ∃ b ∈ l₂, R a b := by
  induction h with
  | nil => simp at ha
  | cons hab _ ih =>
    rcases List.mem_cons.mp ha with rfl | ha
    · exact ⟨_, List.mem_cons_self _ _, hab⟩
    · obtain ⟨b, hb, h⟩ := ih ha
      exact ⟨b, List.mem_cons_of_mem _ hb, h⟩

theorem exists_eq_ok_iff_not_error {α : Type} {r : Except String α} :
    (∃ a, r = .ok a) ↔ ¬∃ e, r = .error e := by
  cases r with
  | error e => exact ⟨fun ⟨_, h⟩ => (nomatch h), fun h => (h ⟨e, rfl⟩).elim⟩
  | ok a => exact ⟨fun _ ⟨_, h⟩ => (nomatch h), fun _ => ⟨a, rfl⟩⟩

/-! ## One price level -/

theorem dumpLevel_of_decode {key value : Bytes} {d : OrderList}
    (h : decodeBytes decodeOrderList value = some d) :
    self.dumpLevel side orderBook key value =
      .ok (setBytes (self.getKey key), ⟨d.volume, (queue self key d).entries.map (orderOf self)⟩) := by
  simp [TomoXStateDB.dumpLevel, h, dumpOrders_eq, queue, newStateOrderList,
    StateOrderList.getTrie]

theorem dumpLevel_of_decode_none {key value : Bytes}
    (h : decodeBytes decodeOrderList value = none) :
    self.dumpLevel side orderBook key value = .error (decodeError orderBook (setBytes (self.getKey key))) := by
  simp [TomoXStateDB.dumpLevel, h]

theorem dumpLevel_eq_ok_iff {key value : Bytes} {l : Nat × DumpOrderList} :
    self.dumpLevel side orderBook key value = .ok l ↔
      ∃ d, decodeBytes decodeOrderList value = some d ∧
        l = (setBytes (self.getKey key), ⟨d.volume, (queue self key d).entries.map (orderOf self)⟩) := by
  rcases hd : decodeBytes decodeOrderList value with _ | d
  · simp [dumpLevel_of_decode_none hd]
  · simp [dumpLevel_of_decode hd, eq_comm]

theorem exists_dumpLevel_eq_ok_iff {key value : Bytes} :
    (∃ l, self.dumpLevel side orderBook key value = .ok l) ↔
      ∃ d, decodeBytes decodeOrderList value = some d := by
  simp only [dumpLevel_eq_ok_iff]
  exact ⟨fun ⟨_, d, hd, _⟩ => ⟨d, hd⟩, fun ⟨d, hd⟩ => ⟨_, d, hd, rfl⟩⟩

theorem dumpLevel_eq_error_iff {key value : Bytes} {msg : String} :
    self.dumpLevel side orderBook key value = .error msg ↔
      decodeBytes decodeOrderList value = none ∧
        msg = decodeError orderBook (setBytes (self.getKey key)) := by
  rcases hd : decodeBytes decodeOrderList value with _ | d
  · simp [dumpLevel_of_decode_none hd, eq_comm]
  · simp [dumpLevel_of_decode hd]

/-- What one turn of the outer loop adds to the result at the level `x`, when
it succeeds. -/
def dumpedLevel (self : TomoXStateDB) (side : Side) (orderBook : Hash) (x : Bytes × Bytes) :
    Nat × DumpOrderList :=
  (self.dumpLevel side orderBook x.1 x.2).toOption.getD (0, ⟨0, []⟩)

theorem dumpedLevel_of_eq_ok {x : Bytes × Bytes} {l : Nat × DumpOrderList}
    (h : self.dumpLevel side orderBook x.1 x.2 = .ok l) : dumpedLevel self side orderBook x = l := by
  rw [dumpedLevel, h]; rfl

/-! ## The outer loop -/

/-- Levels that each dump to a level related to them by `R` dump, one for one,
to levels so related. -/
theorem dumpLevels_ok {R : Nat × DumpOrderList → Bytes × Bytes → Prop}
    (it : List (Bytes × Bytes)) (acc : List (Nat × DumpOrderList))
    (h : ∀ x ∈ it, ∃ l, self.dumpLevel side orderBook x.1 x.2 = .ok l ∧ R l x) :
    ∃ snap, self.dumpLevels side orderBook it acc = .ok (acc ++ snap) ∧ List.Forall₂ R snap it := by
  induction it generalizing acc with
  | nil => exact ⟨[], by simp [TomoXStateDB.dumpLevels], .nil⟩
  | cons x it ih =>
    obtain ⟨l, hl, hR⟩ := h x (List.mem_cons_self _ _)
    obtain ⟨snap, hs, hf⟩ := ih (acc ++ [l]) fun y hy => h y (List.mem_cons_of_mem _ hy)
    refine ⟨l :: snap, ?_, .cons hR hf⟩
    simpa [TomoXStateDB.dumpLevels, hl] using hs

/-- A run of the outer loop that succeeds dumps each level, in order. -/
theorem dumpLevels_eq_ok {it : List (Bytes × Bytes)} {acc r : List (Nat × DumpOrderList)}
    (h : self.dumpLevels side orderBook it acc = .ok r) :
    ∃ snap, r = acc ++ snap ∧
      List.Forall₂ (fun l x => self.dumpLevel side orderBook x.1 x.2 = .ok l) snap it := by
  induction it generalizing acc with
  | nil => exact ⟨[], by simpa [TomoXStateDB.dumpLevels, eq_comm] using h, .nil⟩
  | cons x it ih =>
    rcases hx : self.dumpLevel side orderBook x.1 x.2 with e | l
    · simp [TomoXStateDB.dumpLevels, hx] at h
    · simp only [TomoXStateDB.dumpLevels, hx] at h
      obtain ⟨snap, rfl, hf⟩ := ih h
      exact ⟨l :: snap, by simp, .cons hx hf⟩

/-- Levels that each dump dump, in order, after the accumulated ones. -/
theorem dumpLevels_of_forall₂ {it : List (Bytes × Bytes)} {snap : List (Nat × DumpOrderList)}
    (h : List.Forall₂ (fun l x => self.dumpLevel side orderBook x.1 x.2 = .ok l) snap it)
    (acc : List (Nat × DumpOrderList)) :
    self.dumpLevels side orderBook it acc = .ok (acc ++ snap) := by
  induction h generalizing acc with
  | nil => simp [TomoXStateDB.dumpLevels]
  | cons hx _ ih => simp [TomoXStateDB.dumpLevels, hx, ih]

/-- The outer loop succeeds exactly when each of its levels does, and then holds
their dumps in order. -/
theorem dumpLevels_eq_ok_iff {it : List (Bytes × Bytes)} {acc r : List (Nat × DumpOrderList)} :
    self.dumpLevels side orderBook it acc = .ok r ↔
      ∃ snap, r = acc ++ snap ∧
        List.Forall₂ (fun l x => self.dumpLevel side orderBook x.1 x.2 = .ok l) snap it :=
  ⟨dumpLevels_eq_ok, fun ⟨_, hr, hf⟩ => hr ▸ dumpLevels_of_forall₂ hf acc⟩

/-- A run of the outer loop fails exactly at its first level that fails: the
levels before it dump, and the ones after it are not read. -/
theorem dumpLevels_eq_error_iff {it : List (Bytes × Bytes)} {acc : List (Nat × DumpOrderList)}
    {msg : String} :
    self.dumpLevels side orderBook it acc = .error msg ↔
      ∃ pre x post, it = pre ++ x :: post ∧
        (∀ y ∈ pre, ∃ l, self.dumpLevel side orderBook y.1 y.2 = .ok l) ∧
        self.dumpLevel side orderBook x.1 x.2 = .error msg := by
  induction it generalizing acc with
  | nil =>
    exact ⟨fun h => (by cases h), fun ⟨pre, x, post, h, _⟩ =>
      absurd h.symm (List.append_ne_nil_of_right_ne_nil pre (List.cons_ne_nil x post))⟩
  | cons y it ih =>
    rcases hy : self.dumpLevel side orderBook y.1 y.2 with e | l
    · simp only [TomoXStateDB.dumpLevels, hy, Except.error.injEq]
      constructor
      · rintro rfl
        exact ⟨[], y, it, rfl, fun _ h => absurd h (List.not_mem_nil _), hy⟩
      · rintro ⟨_ | ⟨z, pre⟩, x, post, heq, hpre, hx⟩
        · obtain ⟨rfl, rfl⟩ := List.cons.inj heq
          exact Except.error.inj (hy.symm.trans hx)
        · obtain ⟨rfl, -⟩ := List.cons.inj heq
          obtain ⟨l, hl⟩ := hpre y (List.mem_cons_self _ _)
          cases hy.symm.trans hl
    · simp only [TomoXStateDB.dumpLevels, hy, ih]
      constructor
      · rintro ⟨pre, x, post, rfl, hpre, hx⟩
        exact ⟨y :: pre, x, post, rfl, List.forall_mem_cons.mpr ⟨⟨l, hy⟩, hpre⟩, hx⟩
      · rintro ⟨_ | ⟨z, pre⟩, x, post, heq, hpre, hx⟩
        · obtain ⟨rfl, rfl⟩ := List.cons.inj heq
          cases hy.symm.trans hx
        · obtain ⟨rfl, rfl⟩ := List.cons.inj heq
          exact ⟨pre, x, post, rfl, fun w hw => hpre w (List.mem_cons_of_mem _ hw), hx⟩

/-- A run of the outer loop that fails fails with the error of one of its
levels. -/
theorem dumpLevels_eq_error {it : List (Bytes × Bytes)} {acc : List (Nat × DumpOrderList)}
    {msg : String} (h : self.dumpLevels side orderBook it acc = .error msg) :
    ∃ x ∈ it, self.dumpLevel side orderBook x.1 x.2 = .error msg :=
  let ⟨pre, x, post, hit, _, hx⟩ := dumpLevels_eq_error_iff.mp h
  ⟨x, hit ▸ List.mem_append_right pre (List.mem_cons_self x post), hx⟩

/-- The outer loop fails exactly when one of its levels does. -/
theorem dumpLevels_error_iff {it : List (Bytes × Bytes)} {acc : List (Nat × DumpOrderList)} :
    (∃ e, self.dumpLevels side orderBook it acc = .error e) ↔
      ∃ x ∈ it, ∃ e, self.dumpLevel side orderBook x.1 x.2 = .error e := by
  refine ⟨fun ⟨_, h⟩ => (dumpLevels_eq_error h).imp fun _ ⟨hx, he⟩ => ⟨hx, _, he⟩, ?_⟩
  rintro ⟨x, hx, e, he⟩
  by_contra hne
  obtain ⟨r, hr⟩ := exists_eq_ok_iff_not_error.mpr hne
  obtain ⟨snap, -, hf⟩ := dumpLevels_eq_ok hr
  obtain ⟨l, -, hl⟩ := exists_of_mem_forall₂ hf.flip hx
  cases he.symm.trans hl

/-- A run of the outer loop that succeeds holds what each of its turns adds. -/
theorem dumpLevels_eq_map {it : List (Bytes × Bytes)} {snap : List (Nat × DumpOrderList)}
    (h : self.dumpLevels side orderBook it [] = .ok snap) :
    snap = it.map (dumpedLevel self side orderBook) := by
  obtain ⟨_, rfl, hf⟩ := dumpLevels_eq_ok h
  exact (List.map_id _).symm.trans
    (map_eq_map_of_forall₂ hf fun _ _ _ hx => (dumpedLevel_of_eq_ok hx).symm)

/-! ## A side -/

theorem dumpTrie_of_none (h : self.getStateExchangeObject orderBook = none) :
    self.dumpTrie side orderBook = .error (notFoundError orderBook) := by
  simp [TomoXStateDB.dumpTrie, h]

theorem dumpTrie_of_some {e : ExchangeObject} (h : self.getStateExchangeObject orderBook = some e) :
    self.dumpTrie side orderBook = self.dumpLevels side orderBook (e.getTrie side self.db).entries [] := by
  simp [TomoXStateDB.dumpTrie, h]

/-- A dump of one side succeeds exactly when the book has a state object and
every price level of the side decodes; its snapshot then holds, in the order of
the side's trie, one level for each price level, with the aggregate its value
holds, and one order for each entry of the queue at its root, whatever the
preimage registry holds. -/
theorem dumpTrie_eq_ok_iff {snap : List (Nat × DumpOrderList)} :
    self.dumpTrie side orderBook = .ok snap ↔
      ∃ e, self.getStateExchangeObject orderBook = some e ∧
        List.Forall₂ (fun l x => ∃ d, decodeBytes decodeOrderList x.2 = some d ∧
            l = (setBytes (self.getKey x.1), ⟨d.volume, (queue self x.1 d).entries.map (orderOf self)⟩))
          snap (e.getTrie side self.db).entries := by
  rcases he : self.getStateExchangeObject orderBook with _ | e
  · simp [dumpTrie_of_none he]
  · simp only [dumpTrie_of_some he, dumpLevels_eq_ok_iff, dumpLevel_eq_ok_iff, List.nil_append,
      exists_eq_left', Option.some.injEq]

/-- A dump of one side fails exactly when the book has no state object, with the
not-found error, or at the first price level, in the order of the side's trie,
whose value does not decode, with the error naming the book and that level's
price; the levels after it are not read. -/
theorem dumpTrie_eq_error_iff {msg : String} :
    self.dumpTrie side orderBook = .error msg ↔
      (self.getStateExchangeObject orderBook = none ∧ msg = notFoundError orderBook) ∨
      ∃ e, self.getStateExchangeObject orderBook = some e ∧
        ∃ pre x post, (e.getTrie side self.db).entries = pre ++ x :: post ∧
          (∀ y ∈ pre, ∃ d, decodeBytes decodeOrderList y.2 = some d) ∧
          decodeBytes decodeOrderList x.2 = none ∧
          msg = decodeError orderBook (setBytes (self.getKey x.1)) := by
  rcases he : self.getStateExchangeObject orderBook with _ | e
  · simp only [dumpTrie_of_none he, Except.error.injEq, reduceCtorEq, false_and, exists_false,
      or_false, true_and]
    exact eq_comm
  · simp only [dumpTrie_of_some he, dumpLevels_eq_error_iff, dumpLevel_eq_error_iff,
      exists_dumpLevel_eq_ok_iff, reduceCtorEq, false_and, false_or, Option.some.injEq,
      exists_eq_left']

/-! ## Books to test on -/

/-- The price-level trie of `oneAsk`: one level at the key `[0x10]`. -/
def oneAskLevels (level : Bytes) : Trie := ⟨[([0x10], level)], by simp⟩

/-- The queue of `oneAsk`: one order at the key `[0x20]`. -/
def oneAskQueue (order : Bytes) : Trie := ⟨[([0x20], order)], by simp⟩

/-- A book, `bytesToHash [1]`, whose asks (at the root `bytesToHash [3]`) hold one
price level with the value `level`, whose key's preimage is price 7; its queue
(at the root `bytesToHash [2]`) holds one order with the value `order`, whose
key's preimage is id 9. -/
def oneAsk (level order : Bytes) : TomoXStateDB where
  db := ⟨fun _ root =>
    if root = bytesToHash [3] then oneAskLevels level
    else if root = bytesToHash [2] then oneAskQueue order else ⟨[], List.nodup_nil⟩⟩
  preimages k :=
    if k = [0x10] then some (bytesToHash [7]).bytes
    else if k = [0x20] then some (bytesToHash [9]).bytes else none
  stateExchangeObjects b :=
    if b = bytesToHash [1] then some ⟨bytesToHash [1], bytesToHash [3], bytesToHash [4]⟩ else none

/-- The value of a price level of aggregate 5 whose queue is at `bytesToHash [2]`. -/
def levelOfFive : Bytes := 0xE2 :: 0x05 :: 0xA0 :: (bytesToHash [2]).bytes

theorem decode_levelOfFive :
    decodeBytes decodeOrderList levelOfFive = some ⟨5, bytesToHash [2]⟩ := by decide

/-- The value of a price level of aggregate 7 whose queue is at `bytesToHash [5]`. -/
def levelOfSeven : Bytes := 0xE2 :: 0x07 :: 0xA0 :: (bytesToHash [5]).bytes

theorem decode_levelOfSeven :
    decodeBytes decodeOrderList levelOfSeven = some ⟨7, bytesToHash [5]⟩ := by decide

/-- The price-level trie of `twoAsks`: levels at the keys `[0x10]` and `[0x11]`. -/
def twoAsksLevels : Trie := ⟨[([0x10], levelOfFive), ([0x11], levelOfSeven)], by decide⟩

/-- A book, `bytesToHash [1]`, whose asks (at the root `bytesToHash [3]`) hold
two price levels, of prices 7 and 8. The first, of aggregate 5, has its queue at
`bytesToHash [2]`: orders 9 and 10, of volumes 2 and 3. The second, of aggregate
7, has its queue at `bytesToHash [5]`: orders 11 and 12, of volumes 3 and 4. -/
def twoAsks : TomoXStateDB where
  db := ⟨fun _ root =>
    if root = bytesToHash [3] then twoAsksLevels
    else if root = bytesToHash [2] then ⟨[([0x20], [2]), ([0x21], [3])], by decide⟩
    else if root = bytesToHash [5] then ⟨[([0x22], [3]), ([0x23], [4])], by decide⟩
    else ⟨[], List.nodup_nil⟩⟩
  preimages k :=
    if k = [0x10] then some (bytesToHash [7]).bytes
    else if k = [0x11] then some (bytesToHash [8]).bytes
    else if k = [0x20] then some (bytesToHash [9]).bytes
    else if k = [0x21] then some (bytesToHash [10]).bytes
    else if k = [0x22] then some (bytesToHash [11]).bytes
    else if k = [0x23] then some (bytesToHash [12]).bytes else none
  stateExchangeObjects b :=
    if b = bytesToHash [1] then some ⟨bytesToHash [1], bytesToHash [3], bytesToHash [4]⟩ else none

/-- `Resolves`, from facts about given keys that `decide` checks. -/
theorem resolves_of_lengths {keys : List Bytes}
    (hw : ∀ k ∈ keys, (self.preimages k).map List.length = some 32)
    (hi : ∀ k₁ ∈ keys, ∀ k₂ ∈ keys, self.preimages k₁ = self.preimages k₂ → k₁ = k₂) :
    Resolves self keys :=
  ⟨fun k hk => Option.map_eq_some'.mp (hw k hk), hi⟩

/-! ## The order of the levels -/

/-- Whether the outer loop succeeds, and what it holds up to order, do not
depend on the order the trie yields its levels in; the Go result, a map, has
none. -/
theorem dumpLevels_perm {it it' : List (Bytes × Bytes)} (h : it.Perm it') :
    ((∃ snap, self.dumpLevels side orderBook it [] = .ok snap) ↔
      ∃ snap, self.dumpLevels side orderBook it' [] = .ok snap) ∧
    ∀ snap snap', self.dumpLevels side orderBook it [] = .ok snap →
      self.dumpLevels side orderBook it' [] = .ok snap' → snap.Perm snap' := by
  refine ⟨?_, fun snap snap' hs hs' => ?_⟩
  · rw [exists_eq_ok_iff_not_error, exists_eq_ok_iff_not_error, dumpLevels_error_iff,
      dumpLevels_error_iff, exists_congr fun x => and_congr_left' h.mem_iff]
  · rw [dumpLevels_eq_map hs, dumpLevels_eq_map hs']
    exact h.map _

theorem dumpLevels_perm_twoAsks :
    twoAsksLevels.entries.Perm twoAsksLevels.entries.reverse ∧
      twoAsks.dumpLevels .ask (bytesToHash [1]) twoAsksLevels.entries [] =
        .ok [(7, ⟨5, [(9, 2), (10, 3)]⟩), (8, ⟨7, [(11, 3), (12, 4)]⟩)] ∧
      (((∃ snap, twoAsks.dumpLevels .ask (bytesToHash [1]) twoAsksLevels.entries [] = .ok snap) ↔
          ∃ snap, twoAsks.dumpLevels .ask (bytesToHash [1]) twoAsksLevels.entries.reverse [] =
            .ok snap) ∧
        ∀ snap snap', twoAsks.dumpLevels .ask (bytesToHash [1]) twoAsksLevels.entries [] = .ok snap →
          twoAsks.dumpLevels .ask (bytesToHash [1]) twoAsksLevels.entries.reverse [] = .ok snap' →
            snap.Perm snap') :=
  ⟨(List.reverse_perm _).symm, rfl, dumpLevels_perm (List.reverse_perm _).symm⟩

/-! ## Faithfulness -/

/-- Keys resolved to 32 bytes each, distinct keys to distinct bytes, read as
distinct numbers. -/
theorem nodup_setBytes_getKey {keys : List Bytes} (hres : Resolves self keys) (hk : keys.Nodup) :
    (keys.map fun k => setBytes (self.getKey k)).Nodup := by
  refine hk.map_on fun k₁ h₁ k₂ h₂ he => hres.injective k₁ h₁ k₂ h₂ ?_
  obtain ⟨p₁, hp₁, hl₁⟩ := hres.fixed_width k₁ h₁
  obtain ⟨p₂, hp₂, hl₂⟩ := hres.fixed_width k₂ h₂
  simp only [TomoXStateDB.getKey, hp₁, hp₂, Option.getD_some] at he ⊢
  rw [setBytes_inj (hl₁.trans hl₂.symm) he]

/-- A level that decodes, with its key and its queue's keys resolved, dumps to
a level that stands for it. -/
theorem dumpsLevel_of_decode {x : Bytes × Bytes} {d : OrderList} {p : Bytes}
    (hp : self.preimages x.1 = some p) (hd : decodeBytes decodeOrderList x.2 = some d)
    (hq : Resolves self ((queue self x.1 d).entries.map Prod.fst)) :
    DumpsLevel self (setBytes (self.getKey x.1),
      ⟨d.volume, (queue self x.1 d).entries.map (orderOf self)⟩) x := by
  refine ⟨p, d, hp, hd, by simp [TomoXStateDB.getKey, hp], rfl, ?_⟩
  refine List.forall₂_map_left_iff.mpr (List.forall₂_same.mpr fun o ho => ?_)
  obtain ⟨q, hq, -⟩ := hq.fixed_width o.1 (List.mem_map_of_mem _ ho)
  exact ⟨q, hq, by simp [orderOf, TomoXStateDB.getKey, hq]⟩

/-- Under a registry that resolves every key it traverses to 32 bytes, and
distinct keys to distinct bytes, a dump of a side of a book whose price levels
all decode succeeds, and its snapshot is faithful to the side's trie: one level
for each price level, keyed by its price, with the aggregate its value holds
and the orders of its own queue keyed by their ids, no price and no order id
of a level twice. -/
theorem dumpTrie_faithful (self : TomoXStateDB) (side : Side) (orderBook : Hash)
    (e : ExchangeObject) (he : self.getStateExchangeObject orderBook = some e)
    (hkeys : Traversal self (e.getTrie side self.db).entries)
    (hdec : ∀ x ∈ (e.getTrie side self.db).entries, ∃ d, decodeBytes decodeOrderList x.2 = some d) :
    ∃ snap, self.dumpTrie side orderBook = .ok snap ∧
      Faithful self snap (e.getTrie side self.db).entries := by
  set levels := (e.getTrie side self.db).entries
  obtain ⟨snap, hs, hf⟩ : ∃ snap, self.dumpLevels side orderBook levels [] = .ok ([] ++ snap) ∧
      List.Forall₂ (DumpsLevel self) snap levels := dumpLevels_ok levels [] fun x hx => by
      obtain ⟨d, hd⟩ := hdec x hx
      obtain ⟨p, hp, -⟩ := hkeys.prices.fixed_width x.1 (List.mem_map_of_mem _ hx)
      exact ⟨_, dumpLevel_of_decode hd, dumpsLevel_of_decode hp hd (hkeys.orders x hx d hd)⟩
  refine ⟨snap, by rw [dumpTrie_of_some he, hs, List.nil_append], hf, ?_, ?_⟩
  · rw [map_fst_eq_of_forall₂ (f := fun k => setBytes (self.getKey k)) hf fun _ _ h => h.price]
    exact nodup_setBytes_getKey hkeys.prices (e.getTrie side self.db).nodup_keys
  · intro l hl
    obtain ⟨x, hx, p, d, -, hd, -, -, ho⟩ := exists_of_mem_forall₂ hf hl
    rw [map_fst_eq_of_forall₂ (f := fun k => setBytes (self.getKey k)) ho fun _ _ h => h.id]
    exact nodup_setBytes_getKey (hkeys.orders x hx d hd) (queue self x.1 d).nodup_keys

theorem dumpTrie_faithful_twoAsks :
    twoAsks.getStateExchangeObject (bytesToHash [1]) =
        some ⟨bytesToHash [1], bytesToHash [3], bytesToHash [4]⟩ ∧
      Traversal twoAsks twoAsksLevels.entries ∧
      (∀ x ∈ twoAsksLevels.entries, ∃ d, decodeBytes decodeOrderList x.2 = some d) ∧
      ∃ snap, twoAsks.dumpTrie .ask (bytesToHash [1]) = .ok snap ∧
        Faithful twoAsks snap twoAsksLevels.entries := by
  have he : twoAsks.getStateExchangeObject (bytesToHash [1]) =
      some ⟨bytesToHash [1], bytesToHash [3], bytesToHash [4]⟩ := rfl
  have hq : ∀ x ∈ twoAsksLevels.entries, ∃ d, decodeBytes decodeOrderList x.2 = some d ∧
      Resolves twoAsks ((queue twoAsks x.1 d).entries.map Prod.fst) :=
    List.forall_mem_cons.mpr ⟨⟨_, decode_levelOfFive, resolves_of_lengths (by decide) (by decide)⟩,
      List.forall_mem_cons.mpr ⟨⟨_, decode_levelOfSeven, resolves_of_lengths (by decide) (by decide)⟩,
        fun _ h => absurd h (List.not_mem_nil _)⟩⟩
  have ht : Traversal twoAsks twoAsksLevels.entries :=
    ⟨resolves_of_lengths (by decide) (by decide), fun x hx d hd => by
      obtain ⟨d', hd', hr⟩ := hq x hx
      obtain rfl := Option.some.inj (hd'.symm.trans hd)
      exact hr⟩
  have hd : ∀ x ∈ twoAsksLevels.entries, ∃ d, decodeBytes decodeOrderList x.2 = some d :=
    fun x hx => (hq x hx).imp fun _ => And.left
  exact ⟨he, ht, hd, dumpTrie_faithful _ .ask _ _ he ht hd⟩

/-! ## Errors -/

theorem setBytes_getKey_of_none {k : Bytes} (h : self.preimages k = none) :
    setBytes (self.getKey k) = 0 := by
  simp [TomoXStateDB.getKey, h]

/-- A dump of one side fails exactly when the book has no state object or a
price level of the side does not decode. -/
theorem dumpTrie_error_iff :
    (∃ msg, self.dumpTrie side orderBook = .error msg) ↔ Corrupt self side orderBook := by
  rcases he : self.getStateExchangeObject orderBook with _ | e
  · simp [Corrupt, he, dumpTrie_of_none he]
  · simp only [Corrupt, he, dumpTrie_of_some he, dumpLevels_error_iff, reduceCtorEq, false_or,
      Option.some.injEq, exists_eq_left']
    refine exists_congr fun x => and_congr_right fun _ => ?_
    rcases hd : decodeBytes decodeOrderList x.2 with _ | d
    · simp [dumpLevel_of_decode_none hd]
    · simp [dumpLevel_of_decode hd]

/-- Every error of a dump names the book: either it has no state object, or a
level of the side does not decode, and the error names its price too. -/
theorem dumpTrie_error_msg {msg : String} (h : self.dumpTrie side orderBook = .error msg) :
    (self.getStateExchangeObject orderBook = none ∧ msg = notFoundError orderBook) ∨
      ∃ e, self.getStateExchangeObject orderBook = some e ∧
        ∃ x ∈ (e.getTrie side self.db).entries, decodeBytes decodeOrderList x.2 = none ∧
          msg = decodeError orderBook (setBytes (self.getKey x.1)) := by
  rcases he : self.getStateExchangeObject orderBook with _ | e
  · rw [dumpTrie_of_none he, Except.error.injEq] at h
    exact .inl ⟨rfl, h.symm⟩
  · rw [dumpTrie_of_some he] at h
    obtain ⟨x, hx, hm⟩ := dumpLevels_eq_error h
    rcases hd : decodeBytes decodeOrderList x.2 with _ | d
    · rw [dumpLevel_of_decode_none hd, Except.error.injEq] at hm
      exact .inr ⟨e, rfl, x, hx, hd, hm.symm⟩
    · rw [dumpLevel_of_decode hd] at hm; cases hm

/-- A dump that succeeds holds, one for one and in order, the dumps of the
side's levels. -/
theorem dumpTrie_ok_forall₂ {snap : List (Nat × DumpOrderList)} {e : ExchangeObject}
    (h : self.dumpTrie side orderBook = .ok snap) (he : self.getStateExchangeObject orderBook = some e) :
    List.Forall₂ (fun l x => ∃ d, decodeBytes decodeOrderList x.2 = some d ∧
        l = (setBytes (self.getKey x.1), ⟨d.volume, (queue self x.1 d).entries.map (orderOf self)⟩))
      snap (e.getTrie side self.db).entries := by
  rw [dumpTrie_of_some he] at h
  obtain ⟨snap, rfl, hf⟩ := dumpLevels_eq_ok h
  exact hf.imp fun _ _ => dumpLevel_eq_ok_iff.mp

/-- A dump that succeeds holds the dump of each level that decodes. -/
theorem dumpTrie_ok_level {snap : List (Nat × DumpOrderList)} {e : ExchangeObject}
    (h : self.dumpTrie side orderBook = .ok snap) (he : self.getStateExchangeObject orderBook = some e)
    {x : Bytes × Bytes} (hx : x ∈ (e.getTrie side self.db).entries) {d : OrderList}
    (hd : decodeBytes decodeOrderList x.2 = some d) :
    (setBytes (self.getKey x.1), ⟨d.volume, (queue self x.1 d).entries.map (orderOf self)⟩) ∈ snap := by
  obtain ⟨l, hl, d', hd', rfl⟩ := exists_of_mem_forall₂ (dumpTrie_ok_forall₂ h he).flip hx
  obtain rfl := Option.some.inj (hd'.symm.trans hd)
  exact hl

/-- In a dump that succeeds, the entry for a level whose key has no preimage is
at price zero, and the entry for an order whose key has none at id zero. -/
theorem dumpTrie_ok_zero_keys {snap : List (Nat × DumpOrderList)} {e : ExchangeObject}
    (h : self.dumpTrie side orderBook = .ok snap) (he : self.getStateExchangeObject orderBook = some e) :
    List.Forall₂ (fun l x => (self.preimages x.1 = none → l.1 = 0) ∧
        ∃ d, decodeBytes decodeOrderList x.2 = some d ∧
          List.Forall₂ (fun o y => self.preimages y.1 = none → o.1 = 0) l.2.orders
            (queue self x.1 d).entries)
      snap (e.getTrie side self.db).entries :=
  (dumpTrie_ok_forall₂ h he).imp fun _ _ ⟨d, hd, hl⟩ => by
    subst hl
    exact ⟨setBytes_getKey_of_none, d, hd, List.forall₂_map_left_iff.mpr
      (List.forall₂_same.mpr fun _ _ => setBytes_getKey_of_none)⟩

/-- The errors of a dump of one side: it fails when the book has no state object
or a price level of the side does not decode, and, on a book whose orders
all hold encoded volumes, only then. A key with no preimage is no error: in the
snapshot, which holds one entry for each level of the side in order, the entry
for its level is at price zero, and in that level's orders, one for each entry
of its queue in order, the entry for its order is at id zero. -/
theorem dumpTrie_errors (self : TomoXStateDB) (side : Side) (orderBook : Hash) :
    (Corrupt self side orderBook → ∃ msg, self.dumpTrie side orderBook = .error msg) ∧
    (ValidOrders self side orderBook →
      (∃ msg, self.dumpTrie side orderBook = .error msg) → Corrupt self side orderBook) ∧
    ∀ snap e, self.dumpTrie side orderBook = .ok snap → self.getStateExchangeObject orderBook = some e →
      List.Forall₂ (fun l x => (self.preimages x.1 = none → l.1 = 0) ∧
          ∃ d, decodeBytes decodeOrderList x.2 = some d ∧
            List.Forall₂ (fun o y => self.preimages y.1 = none → o.1 = 0) l.2.orders
              (queue self x.1 d).entries)
        snap (e.getTrie side self.db).entries :=
  ⟨dumpTrie_error_iff.mpr, fun _ => dumpTrie_error_iff.mp, fun _ _ => dumpTrie_ok_zero_keys⟩

/-- `twoAsks` with no preimage for the key of its second level, nor for the key
of the first order of its first level. -/
def twoAsksPartial : TomoXStateDB :=
  { twoAsks with
    preimages := fun k => if k = [0x11] ∨ k = [0x20] then none else twoAsks.preimages k }

theorem dumpTrie_errors_twoAsksPartial :
    Corrupt twoAsksPartial .ask (bytesToHash [5]) ∧
      ValidOrders twoAsksPartial .ask (bytesToHash [1]) ∧
      (∃ msg, twoAsksPartial.dumpTrie .ask (bytesToHash [5]) = .error msg) ∧
      ((∃ msg, twoAsksPartial.dumpTrie .ask (bytesToHash [1]) = .error msg) →
        Corrupt twoAsksPartial .ask (bytesToHash [1])) ∧
      twoAsksPartial.dumpTrie .ask (bytesToHash [1]) =
        .ok [(7, ⟨5, [(0, 2), (10, 3)]⟩), (0, ⟨7, [(11, 3), (12, 4)]⟩)] ∧
      List.Forall₂ (fun (l : Nat × DumpOrderList) (x : Bytes × Bytes) =>
          (twoAsksPartial.preimages x.1 = none → l.1 = 0) ∧
          ∃ d, decodeBytes decodeOrderList x.2 = some d ∧
            List.Forall₂ (fun (o : Nat × Nat) (y : Bytes × Bytes) =>
                twoAsksPartial.preimages y.1 = none → o.1 = 0)
              l.2.orders (queue twoAsksPartial x.1 d).entries)
        [(7, ⟨5, [(0, 2), (10, 3)]⟩), (0, ⟨7, [(11, 3), (12, 4)]⟩)] twoAsksLevels.entries := by
  have hc : Corrupt twoAsksPartial .ask (bytesToHash [5]) := .inl rfl
  have hv : ValidOrders twoAsksPartial .ask (bytesToHash [1]) := by
    intro e he x hx d hd o ho
    obtain rfl : ⟨bytesToHash [1], bytesToHash [3], bytesToHash [4]⟩ = e := Option.some.inj he
    rcases List.mem_pair.mp hx with rfl | rfl
    · obtain rfl := Option.some.inj (decode_levelOfFive.symm.trans hd)
      rcases List.mem_pair.mp ho with rfl | rfl
      exacts [⟨2, by decide⟩, ⟨3, by decide⟩]
    · obtain rfl := Option.some.inj (decode_levelOfSeven.symm.trans hd)
      rcases List.mem_pair.mp ho with rfl | rfl
      exacts [⟨3, by decide⟩, ⟨4, by decide⟩]
  have hs : twoAsksPartial.dumpTrie .ask (bytesToHash [1]) =
      .ok [(7, ⟨5, [(0, 2), (10, 3)]⟩), (0, ⟨7, [(11, 3), (12, 4)]⟩)] := rfl
  exact ⟨hc, hv, (dumpTrie_errors _ _ _).1 hc, (dumpTrie_errors _ _ _).2.1 hv, hs,
    (dumpTrie_errors _ _ _).2.2 _ _ hs rfl⟩

/-- `oneAsk` with no preimage registered. -/
def oneAskNoPreimages : TomoXStateDB := { oneAsk levelOfFive [5] with preimages := fun _ => none }

theorem dumpAskTrie_without_preimages :
    oneAskNoPreimages.preimages [0x10] = none ∧ oneAskNoPreimages.preimages [0x20] = none ∧
      oneAskNoPreimages.dumpAskTrie (bytesToHash [1]) = .ok [(0, ⟨5, [(0, 5)]⟩)] :=
  ⟨rfl, rfl, rfl⟩

end TomoX.Proof
