import EShield.Ebpf.Proofs.ParserProofs
import EShield.Ebpf.RateCounter
import EShield.Node.Policies

/-!
# Port ACL from text to verdict

What the items of the configuration say is compared with what the data plane does after they have
been written to its table. The two differ on items whose lowest port is 0: the encoding takes 0 for
any port, so the data plane matches such an item above its upper bound too.
-/

namespace EShield.Node

open Checks Ebpf Text

/-! ## What an item says -/

/-- The ports that the text names, from the lowest to the highest. -/
def PortAclItem.textualRange (item : PortAclItem) : Option (UInt16 × UInt16) :=
  if item.AnyPort then some (0, 65535)
  else
    match splitOnce '-' item.dport.toList with
    | some (low, high) => do
      let low ← parsePort low
      let high ← parsePort high
      some (low, high)
    | none => (parsePort item.dport.toList).map fun p => (p, p)

def PortAclItem.CoversProtocol (item : PortAclItem) (protocol : UInt8) : Prop :=
  protocolNumber item.protocol = some 0 ∨ protocolNumber item.protocol = some protocol

instance (item : PortAclItem) (protocol : UInt8) : Decidable (item.CoversProtocol protocol) :=
  inferInstanceAs (Decidable (_ ∨ _))

def PortAclItem.CoversPort (item : PortAclItem) (dport : UInt16) : Prop :=
  item.textualRange.any fun r => r.1 ≤ dport ∧ dport ≤ r.2

instance (item : PortAclItem) (dport : UInt16) : Decidable (item.CoversPort dport) :=
  inferInstanceAs (Decidable (_ = true))

def PortAclItem.Covers (item : PortAclItem) (protocol : UInt8) (dport : UInt16) : Prop :=
  item.CoversProtocol protocol ∧ item.CoversPort dport

instance (item : PortAclItem) (protocol : UInt8) (dport : UInt16) :
    Decidable (item.Covers protocol dport) := inferInstanceAs (Decidable (_ ∧ _))

def PortAclItem.Drops (item : PortAclItem) : Prop := aclActionNumber item.action = some 2

instance (item : PortAclItem) : Decidable item.Drops := inferInstanceAs (Decidable (_ = _))

/-- The first item that covers the packet has action drop. -/
def FirstMatchDrops (items : List PortAclItem) (protocol : UInt8) (dport : UInt16) : Prop :=
  (items.find? fun item => item.Covers protocol dport).any fun item => item.Drops

instance (items : List PortAclItem) (protocol : UInt8) (dport : UInt16) :
    Decidable (FirstMatchDrops items protocol dport) := inferInstanceAs (Decidable (_ = true))

/-- The item names ports from 0 up to some port below 65535 that lies below `dport`. -/
def PortAclItem.EndsBelow (item : PortAclItem) (dport : UInt16) : Prop :=
  item.textualRange.any fun r => r.1 = 0 ∧ r.2 < dport

instance (item : PortAclItem) (dport : UInt16) : Decidable (item.EndsBelow dport) :=
  inferInstanceAs (Decidable (_ = true))

/-- The data plane stops at the item. -/
def PortAclItem.Stops (item : PortAclItem) (protocol : UInt8) (dport : UInt16) : Prop :=
  item.CoversProtocol protocol ∧ (item.CoversPort dport ∨ item.EndsBelow dport)

instance (item : PortAclItem) (protocol : UInt8) (dport : UInt16) :
    Decidable (item.Stops protocol dport) := inferInstanceAs (Decidable (_ ∧ _))

/-- The first of the items that covers the packet, or that names ports from 0 on of which the
packet's lies above the last, is of the first kind or decides like the items behind it. -/
def ZeroBoundHarmless (protocol : UInt8) (dport : UInt16) : List PortAclItem → Prop
  | [] => True
  | item :: rest =>
    if item.Covers protocol dport then True
    else if item.CoversProtocol protocol ∧ item.EndsBelow dport then
      item.Drops ↔ FirstMatchDrops rest protocol dport
    else ZeroBoundHarmless protocol dport rest

/-! ## Accepted items -/

theorem aclActionNumber_cases {action : String} {n : UInt8} (h : aclActionNumber action = some n) :
    n = 1 ∨ n = 2 := by
  unfold aclActionNumber at h
  simp only at h
  split at h
  · exact .inl (Option.some.inj h).symm
  · split at h
    · exact .inr (Option.some.inj h).symm
    · cases h

/-- What the check of an item establishes. -/
theorem validatePortAclItem_spec {i : Nat} {item : PortAclItem}
    (h : validatePortAclItem i item = .ok ()) :
    (∃ n, protocolNumber item.protocol = some n) ∧ (∃ a, aclActionNumber item.action = some a) ∧
      ∃ r, item.textualRange = some r ∧ r.1 ≤ r.2 := by
  unfold validatePortAclItem at h
  obtain ⟨hprotocol, h⟩ := check_bind_eq_ok.1 h
  obtain ⟨haction, h⟩ := check_bind_eq_ok.1 h
  refine ⟨Option.ne_none_iff_exists'.1 (rejectIf_eq_ok.1 hprotocol),
    Option.ne_none_iff_exists'.1 (rejectIf_eq_ok.1 haction), ?_⟩
  unfold PortAclItem.textualRange
  by_cases hany : item.AnyPort
  · exact ⟨_, if_pos hany, by decide⟩
  · rw [if_neg hany]
    rw [if_neg hany] at h
    cases hsplit : splitOnce '-' item.dport.toList with
    | some bounds =>
      obtain ⟨low, high⟩ := bounds
      rw [hsplit] at h
      obtain ⟨l, hlow, h⟩ := bind_eq_ok.1 h
      obtain ⟨u, hhigh, h⟩ := bind_eq_ok.1 h
      rw [required_eq_ok] at hlow hhigh
      refine ⟨(l, u), ?_, UInt16.not_lt.1 (rejectIf_eq_ok.1 h)⟩
      simp only [hlow, hhigh]
      rfl
    | none =>
      rw [hsplit] at h
      obtain ⟨p, hp, -⟩ := bind_eq_ok.1 h
      rw [required_eq_ok] at hp
      refine ⟨(p, p), ?_, UInt16.le_refl _⟩
      simp only [hp]
      rfl

/-- The bounds of an entry: those that the text names, 0 for a wildcard. -/
theorem ports_of_textualRange {item : PortAclItem} {r : UInt16 × UInt16}
    (h : item.textualRange = some r) (hle : r.1 ≤ r.2) :
    PortAclItem.toEntry.ports item = .ok (if item.AnyPort then (0, 0) else r) := by
  unfold PortAclItem.toEntry.ports
  unfold PortAclItem.textualRange at h
  by_cases hany : item.AnyPort
  · rw [if_pos hany, if_pos hany]
    rfl
  · rw [if_neg hany] at h
    rw [if_neg hany, if_neg hany]
    cases hsplit : splitOnce '-' item.dport.toList with
    | some bounds =>
      obtain ⟨low, high⟩ := bounds
      rw [hsplit] at h
      obtain ⟨l, hlow, h⟩ := Option.bind_eq_some_iff.1 h
      obtain ⟨u, hhigh, h⟩ := Option.bind_eq_some_iff.1 h
      cases h
      simp only [hlow, hhigh]
      exact bind_eq_ok.2 ⟨l, rfl, bind_eq_ok.2 ⟨u, rfl,
        bind_eq_ok.2 ⟨(), rejectIf_eq_ok.2 (UInt16.not_lt.2 hle), rfl⟩⟩⟩
    | none =>
      rw [hsplit] at h
      obtain ⟨p, hp, rfl⟩ := Option.map_eq_some_iff.1 h
      simp only [hp]
      rfl

/-- The entry of an accepted item. -/
structure Encodes (item : PortAclItem) (entry : PortAclEntry) : Prop where
  toEntry : item.toEntry = .ok entry
  protocol : protocolNumber item.protocol = some entry.protocol
  action : aclActionNumber item.action = some entry.action
  ports : ∃ r, item.textualRange = some r ∧ r.1 ≤ r.2 ∧
    (bswap16 entry.dportLow, bswap16 entry.dportHigh) = if item.AnyPort then (0, 0) else r

theorem exists_encodes {i : Nat} {item : PortAclItem} (h : validatePortAclItem i item = .ok ()) :
    ∃ entry, Encodes item entry := by
  obtain ⟨⟨n, hn⟩, ⟨a, ha⟩, r, hr, hle⟩ := validatePortAclItem_spec h
  have hports := ports_of_textualRange hr hle
  generalize hq : (if item.AnyPort then (0, 0) else r) = q at hports
  refine ⟨{ protocol := n, dportLow := bswap16 q.1, dportHigh := bswap16 q.2, action := a },
    ?_, hn, ha, r, hr, hle, ?_⟩
  · unfold PortAclItem.toEntry
    rw [hn, ha, hports]
    rfl
  · rw [hq, bswap16_bswap16, bswap16_bswap16]

/-! ## One entry -/

/-- The bounds of an entry let a port through when the item covers it or is taken for any port. -/
theorem ports_match_iff {item : PortAclItem} {entry : PortAclEntry} (h : Encodes item entry)
    (dport : UInt16) :
    item.CoversPort dport ∨ item.EndsBelow dport ↔
      ¬ (bswap16 entry.dportLow ≠ 0 ∧ bswap16 entry.dportHigh ≠ 0 ∧
          (dport < bswap16 entry.dportLow ∨ dport > bswap16 entry.dportHigh)) ∧
        ¬ (bswap16 entry.dportLow ≠ 0 ∧ bswap16 entry.dportHigh = 0 ∧
          dport ≠ bswap16 entry.dportLow) := by
  obtain ⟨⟨low, high⟩, hr, hle, hports⟩ := h.ports
  have hcovers : item.CoversPort dport ↔ low ≤ dport ∧ dport ≤ high := by
    simp [PortAclItem.CoversPort, hr]
  have hends : item.EndsBelow dport ↔ low = 0 ∧ high < dport := by
    simp [PortAclItem.EndsBelow, hr]
  rw [hcovers, hends]
  by_cases hany : item.AnyPort
  · rw [if_pos hany, Prod.mk.injEq] at hports
    rw [PortAclItem.textualRange, if_pos hany] at hr
    cases hr
    rw [hports.1, hports.2]
    have hmax : dport ≤ 65535 := UInt16.le_iff_toNat_le.2 (Nat.le_of_lt_succ dport.toNat_lt)
    simp [hmax]
  · rw [if_neg hany, Prod.mk.injEq] at hports
    rw [hports.1, hports.2]
    simp only [ne_eq, UInt16.le_iff_toNat_le, UInt16.lt_iff_toNat_lt, ← UInt16.toNat_inj,
      UInt16.toNat_zero, gt_iff_lt] at hle ⊢
    omega

/-- The data plane stops at the entry of an item that covers the packet, and at one that names ports
from 0 on and ends below the packet's port. -/
theorem matchPortAclEntry_of_encodes {item : PortAclItem} {entry : PortAclEntry}
    (h : Encodes item entry) (protocol : UInt8) (dport : UInt16) :
    matchPortAclEntry protocol dport entry.protocol (bswap16 entry.dportLow)
        (bswap16 entry.dportHigh) entry.action =
      if item.Stops protocol dport then
        some (if item.Drops then .drop else .allow)
      else none := by
  have hprotocol :
      item.CoversProtocol protocol ↔ ¬ (entry.protocol ≠ 0 ∧ entry.protocol ≠ protocol) := by
    unfold PortAclItem.CoversProtocol
    rw [h.protocol]
    simp only [Option.some.injEq]
    tauto
  have hdrops : item.Drops ↔ entry.action = 2 := by
    rw [PortAclItem.Drops, h.action, Option.some.injEq]
  have haction : entry.action ≠ 0 := by
    rcases aclActionNumber_cases h.action with ha | ha <;> rw [ha] <;> decide
  unfold matchPortAclEntry
  rw [if_neg haction]
  by_cases hp : entry.protocol ≠ 0 ∧ entry.protocol ≠ protocol
  · have hother : ¬ item.Stops protocol dport := fun hc => hprotocol.1 hc.1 hp
    rw [if_pos hp, if_neg hother]
  rw [if_neg hp]
  by_cases hd : item.CoversPort dport ∨ item.EndsBelow dport
  · obtain ⟨hfirst, hsecond⟩ := (ports_match_iff h dport).1 hd
    have hreached : item.Stops protocol dport := ⟨hprotocol.2 hp, hd⟩
    rw [if_neg hfirst, if_neg hsecond, if_pos hreached]
    rcases aclActionNumber_cases h.action with ha | ha
    · have hallows : ¬ item.Drops := fun hc => absurd (ha.symm.trans (hdrops.1 hc)) (by decide)
      rw [if_pos ha, if_neg hallows]
    · have hne : entry.action ≠ 1 := by
        rw [ha]
        decide
      rw [if_neg hne, if_pos ha, if_pos (hdrops.2 ha)]
  · have hother : ¬ item.Stops protocol dport := fun hc => hd hc.2
    rw [if_neg hother]
    by_cases hfirst : bswap16 entry.dportLow ≠ 0 ∧ bswap16 entry.dportHigh ≠ 0 ∧
        (dport < bswap16 entry.dportLow ∨ dport > bswap16 entry.dportHigh)
    · rw [if_pos hfirst]
    · have hsecond : bswap16 entry.dportLow ≠ 0 ∧ bswap16 entry.dportHigh = 0 ∧
          dport ≠ bswap16 entry.dportLow :=
        not_not.1 fun hc => hd ((ports_match_iff h dport).2 ⟨hfirst, hc⟩)
      rw [if_neg hfirst, if_pos hsecond]

/-! ## The table -/

/-- The table after all rules could be encoded. -/
theorem fillTable_spec {α β : Type} {n : Nat} {encode : Nat → α → Except String β} {R : α → β → Prop}
    (hencode : ∀ i a b, i < n → R a b → encode i a = .ok b) {as : List α} {bs : List β}
    (h : List.Forall₂ R as bs) (i : Nat) (hlen : i + as.length ≤ n) (table : Vector β n) :
    ∃ table', fillTable encode i as table = (.ok (), table') ∧
      (∀ j, j < i → table'[j]? = table[j]?) ∧ ∀ k, k < bs.length → table'[i + k]? = bs[k]? := by
  induction h generalizing i table with
  | nil => exact ⟨table, rfl, fun _ _ => rfl, fun k hk => absurd hk (Nat.not_lt_zero k)⟩
  | @cons a b as bs hab hrest ih =>
    rw [List.length_cons] at hlen
    obtain ⟨table', hfill, hbefore, hat⟩ :=
      ih (i + 1) (by omega) (table.setIfInBounds i b)
    refine ⟨table', ?_, fun j hj => ?_, fun k hk => ?_⟩
    · rw [fillTable, hencode i a b (by omega) hab]
      exact hfill
    · rw [hbefore j (by omega), Vector.getElem?_setIfInBounds, if_neg (by omega)]
    · cases k with
      | zero =>
        rw [Nat.add_zero, hbefore i (by omega), Vector.getElem?_setIfInBounds, if_pos rfl,
          if_pos (by omega)]
        rfl
      | succ k =>
        rw [List.length_cons] at hk
        have := hat k (by omega)
        rw [Nat.add_right_comm] at this
        exact this

/-- The items of an accepted list can all be encoded. -/
theorem encodes_of_mem {items : List PortAclItem} (h : validatePortAclItems items = .ok ())
    {item : PortAclItem} (hitem : item ∈ items) : ∃ entry, Encodes item entry := by
  obtain ⟨-, h⟩ := check_bind_eq_ok.1 h
  obtain ⟨i, hi⟩ := List.getElem?_of_mem hitem
  exact exists_encodes (all_zipIdx_eq_ok.1 h i item hi)

theorem length_le_of_valid {items : List PortAclItem} (h : validatePortAclItems items = .ok ()) :
    items.length ≤ MAX_PORT_ACL := by
  obtain ⟨hlen, -⟩ := check_bind_eq_ok.1 h
  exact not_lt.1 (rejectIf_eq_ok.1 hlen)

theorem portAclEntry_of_encodes (i : Nat) (item : PortAclItem) (entry : PortAclEntry)
    (hi : i < MAX_PORT_ACL) (h : Encodes item entry) : portAclEntry i item = .ok entry := by
  unfold portAclEntry
  refine check_bind_eq_ok.2 ⟨rejectIf_eq_ok.2 (not_le.2 hi), ?_⟩
  rw [h.toEntry]
  rfl

/-- Reading a table slot by slot is reading the list in it. -/
theorem findSome?_range {α β : Type} {slot : Nat → Option α} {as : List α}
    (h : ∀ k, k < as.length → slot k = as[k]?) (f : α → Option β) :
    ((List.range as.length).findSome? fun i => (slot i).bind f) = as.findSome? f := by
  induction as generalizing slot with
  | nil => rfl
  | cons a as ih =>
    have hhead : slot 0 = some a := h 0 (Nat.succ_pos _)
    have htail : ∀ k, k < as.length → slot (k + 1) = as[k]? := fun k hk =>
      h (k + 1) (Nat.succ_lt_succ hk)
    rw [List.length_cons, List.range_succ_eq_map, List.findSome?_cons, List.findSome?_cons,
      List.findSome?_map, hhead, Option.bind_some]
    cases f a with
    | some b => rfl
    | none => exact ih htail

/-- The verdict of the data plane on the items: that of the first one it stops at. -/
def tableVerdict (items : List PortAclItem) (protocol : UInt8) (dport : UInt16) : Option AclMatch :=
  items.findSome? fun item =>
    if item.Stops protocol dport then some (if item.Drops then .drop else .allow) else none

theorem findSome?_entries {items : List PortAclItem} {entries : List PortAclEntry}
    (h : List.Forall₂ Encodes items entries) (protocol : UInt8) (dport : UInt16) :
    (entries.findSome? fun entry =>
      matchPortAclEntry protocol dport entry.protocol (bswap16 entry.dportLow)
        (bswap16 entry.dportHigh) entry.action) = tableVerdict items protocol dport := by
  induction h with
  | nil => rfl
  | @cons item entry items entries henc hrest ih =>
    rw [tableVerdict, List.findSome?_cons, List.findSome?_cons,
      matchPortAclEntry_of_encodes henc, ih, tableVerdict]

/-- The data plane reads the table up to the count. -/
theorem checkPortAcl_of_slots {m : Maps} {entries : List PortAclEntry} {count : UInt8}
    (hcount : count.toNat = entries.length)
    (hslot : ∀ k, k < entries.length → m.portAcl[k]? = entries[k]?) (protocol : UInt8)
    (dport : UInt16) :
    checkPortAcl m protocol dport count =
      decide ((entries.findSome? fun entry =>
        matchPortAclEntry protocol dport entry.protocol (bswap16 entry.dportLow)
          (bswap16 entry.dportHigh) entry.action) = some .drop) := by
  rw [← findSome?_range hslot, ← hcount, checkPortAcl]
  congr 3
  funext i
  cases m.portAcl[i]? with
  | none => rfl
  | some entry => rfl

/-- The count that the data plane uses is that of the rules. -/
theorem toNat_tableCount {length size : Nat} {cap : UInt8} (h : length ≤ size)
    (hcap : cap.toNat = size) : (min (tableCount length size) cap).toNat = length := by
  have hsize := cap.toNat_lt
  have hbyte : length.toUInt8.toNat = length := by
    rw [Nat.toUInt8_eq, UInt8.toNat_ofNat']
    omega
  have hcap' : size.toUInt8 = cap := by
    apply UInt8.toNat_inj.1
    rw [Nat.toUInt8_eq, UInt8.toNat_ofNat', hcap]
    omega
  have hmin : length.toUInt8 ≤ cap := by
    rw [UInt8.le_iff_toNat_le, hbyte, hcap]
    exact h
  have hcapped : min length.toUInt8 cap = length.toUInt8 := if_pos hmin
  have hcount : tableCount length size = length.toUInt8 := by
    rw [tableCount, hcap']
    exact hcapped
  rw [hcount, hcapped, hbyte]

/-- What is in force after an accepted list has been written. -/
theorem initPortAclMap_spec {items : List PortAclItem} (h : validatePortAclItems items = .ok ())
    (m : Maps) :
    ∃ m', (initPortAclMap items).Passes m m' ∧ ∀ protocol dport,
      checkPortAcl m' protocol dport (min m'.config.portAclCount 32) =
        decide (tableVerdict items protocol dport = some .drop) := by
  have hlen := length_le_of_valid h
  obtain ⟨entries, hentries⟩ := exists_forall₂ fun item hitem => encodes_of_mem h hitem
  obtain ⟨table, hfill, -, hat⟩ :=
    fillTable_spec portAclEntry_of_encodes hentries 0 (by omega) (.replicate _ {})
  refine ⟨_, by rw [Attempt.Passes, initPortAclMap, hfill], fun protocol dport => ?_⟩
  have hslot : ∀ k, k < entries.length → table[k]? = entries[k]? := fun k hk => by
    have hk' := hat k hk
    rwa [Nat.zero_add] at hk'
  rw [← findSome?_entries hentries]
  exact checkPortAcl_of_slots ((toNat_tableCount hlen rfl).trans hentries.length_eq) hslot protocol
    dport

/-- The verdict of the data plane is the textual one exactly when no item whose ports start at 0 gets
in the way. -/
theorem tableVerdict_iff (items : List PortAclItem) (protocol : UInt8) (dport : UInt16) :
    (tableVerdict items protocol dport = some .drop ↔ FirstMatchDrops items protocol dport) ↔
      ZeroBoundHarmless protocol dport items := by
  induction items with
  | nil => simp [tableVerdict, FirstMatchDrops, ZeroBoundHarmless]
  | cons item rest ih =>
    rw [ZeroBoundHarmless]
    by_cases hcovers : item.Covers protocol dport
    · have hstops : item.Stops protocol dport := ⟨hcovers.1, .inl hcovers.2⟩
      simp [tableVerdict, FirstMatchDrops, hcovers, hstops]
    · have hfirst : FirstMatchDrops (item :: rest) protocol dport ↔
          FirstMatchDrops rest protocol dport := by
        simp [FirstMatchDrops, hcovers]
      rw [if_neg hcovers, hfirst]
      by_cases hbelow : item.CoversProtocol protocol ∧ item.EndsBelow dport
      · have hstops : item.Stops protocol dport := ⟨hbelow.1, .inr hbelow.2⟩
        rw [if_pos hbelow]
        simp [tableVerdict, hstops]
      · have hgoes : ¬ item.Stops protocol dport := fun ⟨hprotocol, hport⟩ =>
          hport.elim (fun hc => hcovers ⟨hprotocol, hc⟩) fun hb => hbelow ⟨hprotocol, hb⟩
        rw [if_neg hbelow, ← ih]
        simp [tableVerdict, hgoes]

/-- The ACL from the text to the verdict: accepted items all convert, and the data plane drops a
packet as the first item that covers it says if and only if no item that names ports from 0 on, and
ends below the packet's port, is met before and decides otherwise. -/
theorem port_acl_exact (items : List PortAclItem) (h : validatePortAclItems items = .ok ())
    (m : Maps) :
    (∀ item ∈ items, ∃ entry, item.toEntry = .ok entry) ∧
      ∃ m', (initPortAclMap items).Passes m m' ∧ ∀ protocol dport,
        ((checkPortAcl m' protocol dport (min m'.config.portAclCount 32) = true ↔
            FirstMatchDrops items protocol dport) ↔
          ZeroBoundHarmless protocol dport items) := by
  constructor
  · intro item hitem
    obtain ⟨entry, hentry⟩ := encodes_of_mem h hitem
    exact ⟨entry, hentry.toEntry⟩
  · obtain ⟨m', hpasses, hverdict⟩ := initPortAclMap_spec h m
    refine ⟨m', hpasses, fun protocol dport => ?_⟩
    rw [hverdict protocol dport, decide_eq_true_iff]
    exact tableVerdict_iff items protocol dport

theorem port_acl_exact_two_items :
    ∃ m', (initPortAclMap
          [{ protocol := "TCP", dport := "80-90", action := "drop" },
            { protocol := "any", dport := "*", action := "allow" }]).Passes {} m' ∧
      checkPortAcl m' 6 85 (min m'.config.portAclCount 32) = true := by
  have hvalid : validatePortAclItems
      [{ protocol := "TCP", dport := "80-90", action := "drop" },
        { protocol := "any", dport := "*", action := "allow" }] = .ok () := rfl
  obtain ⟨m', hpasses, hexact⟩ := (port_acl_exact _ hvalid {}).2
  refine ⟨m', hpasses, ?_⟩
  have hharmless : ZeroBoundHarmless 6 85
      [{ protocol := "TCP", dport := "80-90", action := "drop" },
        { protocol := "any", dport := "*", action := "allow" }] :=
    of_eq_true (if_pos (by decide))
  exact ((hexact 6 85).2 hharmless).2 (by decide)

/-- An item for the ports up to 100 drops a packet to port 443, which it does not cover. -/
theorem range_from_zero_drops_every_port :
    ∃ items m', validatePortAclItems items = .ok () ∧ (initPortAclMap items).Passes {} m' ∧
      checkPortAcl m' 6 443 (min m'.config.portAclCount 32) = true ∧
      ¬ FirstMatchDrops items 6 443 :=
  ⟨[{ protocol := "tcp", dport := "0-100", action := "drop" }], _, rfl, rfl, by decide, by decide⟩

end EShield.Node
