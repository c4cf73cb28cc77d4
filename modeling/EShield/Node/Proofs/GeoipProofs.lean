import EShield.Lib.Exec
import EShield.Node.Lists

/-!
# Replacing the GeoIP lists

The tracked lists are what a call knows of the tries when it cleans them up. They are right after a
call that succeeds; a call that fails may forget prefixes that the tries still hold, and no later call
removes those.
-/

namespace EShield.Node

open Exec

/-! ## One list -/

/-- Every prefix that the tries hold is tracked. -/
def Tracks (t : CidrTries) (cs : List Cidr) : Prop := ∀ d, t.Holds d → ∃ c ∈ cs, c.Same d

/-- The tries hold the prefixes of `cs` and no others. -/
def HoldsExactly (t : CidrTries) (cs : List Cidr) : Prop := ∀ d, t.Holds d ↔ ∃ c ∈ cs, c.Same d

/-- No old block that is to be removed is a new one in another spelling. -/
def NoOtherSpelling (old new : List Cidr) : Prop :=
  ∀ c ∈ staleBlocks old new, ∀ n ∈ new, ¬ c.Same n

theorem mem_byFamily {cs : List Cidr} {c : Cidr} :
    c ∈ byFamily cs ↔ c ∈ cs ∧ c.1.ipFamily ≠ none := by
  unfold byFamily ofFamily
  simp only [List.mem_append, List.mem_filter, decide_eq_true_eq]
  cases hfamily : c.1.ipFamily with
  | none => simp
  | some family => cases family <;> simp

/-- Blocks of an unknown family have no prefix, so leaving them out changes nothing. -/
theorem exists_byFamily_iff {cs : List Cidr} {d : Cidr} :
    (∃ c ∈ byFamily cs, c.Same d) ↔ ∃ c ∈ cs, c.Same d := by
  constructor
  · rintro ⟨c, hc, hsame⟩
    exact ⟨c, (mem_byFamily.1 hc).1, hsame⟩
  · rintro ⟨c, hc, hsame⟩
    exact ⟨c, mem_byFamily.2 ⟨hc, hsame.family_left⟩, hsame⟩

/-- Writing the new blocks and then removing the stale ones of the tracked list. -/
theorem holdsExactly_of_tracks {t : CidrTries} {old new : List Cidr} (htracks : Tracks t old)
    (hspelling : NoOtherSpelling old new) :
    HoldsExactly ((staleBlocks old new).foldl CidrTries.remove
      ((byFamily new).foldl CidrTries.insert t)) new := by
  intro d
  rw [CidrTries.holds_foldl_remove, CidrTries.holds_foldl_insert, exists_byFamily_iff]
  constructor
  · rintro ⟨hnew | hold, hstale⟩
    · exact hnew
    · obtain ⟨c, hc, hsame⟩ := htracks d hold
      by_cases hkept : ∃ n ∈ new, n.SameKey c
      · obtain ⟨n, hn, hkey⟩ := hkept
        exact ⟨n, hn, hkey.same.trans hsame⟩
      · have hmem : c ∈ staleBlocks old new := by
          refine List.mem_filter.2 ⟨mem_byFamily.2 ⟨hc, hsame.family_left⟩, ?_⟩
          exact decide_eq_true hkept
        exact absurd hsame (hstale c hmem)
  · rintro ⟨n, hn, hsame⟩
    refine ⟨.inl ⟨n, hn, hsame⟩, fun c hc hcd => hspelling c hc n hn ?_⟩
    exact hcd.trans hsame.symm

theorem HoldsExactly.tracks {t : CidrTries} {cs : List Cidr} (h : HoldsExactly t cs) :
    Tracks t cs := fun d hd => (h d).1 hd

/-- What the tries hold after some of the new blocks have been written is among the new ones, if what
they held before is. -/
theorem tracks_of_half_written {t : CidrTries} {new : List Cidr} (n : Nat)
    (hheld : ∀ d, t.Holds d → ∃ c ∈ new, c.Same d) :
    Tracks (((byFamily new).take n).foldl CidrTries.insert t) new := by
  intro d hd
  rcases (CidrTries.holds_foldl_insert _ _ d).1 hd with ⟨c, hc, hsame⟩ | hold
  · exact exists_byFamily_iff.1 ⟨c, List.mem_of_mem_take hc, hsame⟩
  · exact hheld d hold

/-! ## One call -/

section Call

variable {csv : CsvFiles} {config : GeoIpConfig} {insertFails : Option Nat} {g : GeoipLists}

/-- The number of insertions for two new lists. -/
def insertions (blocks allows : List Cidr) : Nat :=
  (byFamily blocks).length + (byFamily allows).length

/-- The call fails at an insertion. -/
def InsertFails (insertFails : Option Nat) (blocks allows : List Cidr) : Prop :=
  ∃ n, insertFails = some n ∧ n < insertions blocks allows

theorem applyGeoipMap_of_unreadable {e : String} (h : loadGeoipLists csv config = .error e) :
    applyGeoipMap csv config insertFails g = (.error e, { g with blocks := [], allows := [] }) := by
  unfold applyGeoipMap
  rw [h]

theorem applyGeoipMap_of_full {blocks allows : List Cidr} {n : Nat}
    (h : loadGeoipLists csv config = .ok (blocks, allows)) (hn : n < insertions blocks allows) :
    applyGeoipMap csv config (some n) g =
      (.error "bpf_map_update_elem",
        { blockTries := ((byFamily blocks).take n).foldl CidrTries.insert g.blockTries
          allowTries :=
            ((byFamily allows).take (n - (byFamily blocks).length)).foldl CidrTries.insert
              g.allowTries
          blocks := blocks
          allows := allows }) := by
  unfold applyGeoipMap
  rw [h]
  exact if_pos hn

theorem applyGeoipMap_of_written {blocks allows : List Cidr}
    (h : loadGeoipLists csv config = .ok (blocks, allows))
    (hn : ¬ InsertFails insertFails blocks allows) :
    applyGeoipMap csv config insertFails g = applyGeoipMap.written g blocks allows := by
  unfold applyGeoipMap
  rw [h]
  cases insertFails with
  | none => rfl
  | some n => exact if_neg fun hlt => hn ⟨n, rfl, hlt⟩

end Call

/-! ## Runs -/

structure GeoipCall where
  csv : CsvFiles
  config : GeoIpConfig
  /-- The insertion that fails, if one does. -/
  insertFails : Option Nat := none

def GeoipCall.run (c : GeoipCall) : Attempt GeoipLists String :=
  applyGeoipMap c.csv c.config c.insertFails

def geoipStep (g : GeoipLists) (c : GeoipCall) : Option GeoipLists := some (c.run g).2

/-- Both pairs of tries are tracked. -/
def GeoipTracked (g : GeoipLists) : Prop :=
  Tracks g.blockTries g.blocks ∧ Tracks g.allowTries g.allows

/-- A call that cannot read its files finds the tries empty; one that fails at an insertion has the
prefixes of the tries among its own; one that succeeds removes none of its own prefixes in another
spelling. -/
structure ForgetsNothing (g : GeoipLists) (c : GeoipCall) : Prop where
  unreadable : ∀ e, loadGeoipLists c.csv c.config = .error e →
    ∀ d, ¬ g.blockTries.Holds d ∧ ¬ g.allowTries.Holds d
  full : ∀ blocks allows, loadGeoipLists c.csv c.config = .ok (blocks, allows) →
    InsertFails c.insertFails blocks allows →
    Tracks g.blockTries blocks ∧ Tracks g.allowTries allows
  written : ∀ blocks allows, loadGeoipLists c.csv c.config = .ok (blocks, allows) →
    ¬ InsertFails c.insertFails blocks allows →
    NoOtherSpelling g.blocks blocks ∧ NoOtherSpelling g.allows allows

/-- Tries and tracked lists are those of the configuration. -/
structure GeoipExact (csv : CsvFiles) (config : GeoIpConfig) (g : GeoipLists) : Prop where
  blockTries : ∃ blocks, loadGeoipBlocks csv config = .ok blocks ∧ HoldsExactly g.blockTries blocks
  allowTries : ∃ allows, loadGeoipAllows csv config = .ok allows ∧ HoldsExactly g.allowTries allows
  blocks : HoldsExactly g.blockTries g.blocks
  allows : HoldsExactly g.allowTries g.allows

theorem loadGeoipLists_eq_ok {csv : CsvFiles} {config : GeoIpConfig} {blocks allows : List Cidr}
    (h : loadGeoipLists csv config = .ok (blocks, allows)) :
    loadGeoipBlocks csv config = .ok blocks ∧ loadGeoipAllows csv config = .ok allows := by
  obtain ⟨b, hb, h⟩ := Checks.bind_eq_ok.1 h
  obtain ⟨a, ha, h⟩ := Checks.bind_eq_ok.1 h
  cases h
  exact ⟨hb, ha⟩

/-- One call: the tries stay tracked, and if it succeeds they are exactly its configuration's. -/
theorem geoipTracked_run {g : GeoipLists} {c : GeoipCall} (hinv : GeoipTracked g)
    (hcond : ForgetsNothing g c) :
    GeoipTracked (c.run g).2 ∧ ((c.run g).1 = .ok () → GeoipExact c.csv c.config (c.run g).2) := by
  cases hload : loadGeoipLists c.csv c.config with
  | error e =>
    have hrun : c.run g = (.error e, { g with blocks := [], allows := [] }) :=
      applyGeoipMap_of_unreadable hload
    have hempty := hcond.unreadable e hload
    rw [hrun]
    exact ⟨⟨fun d hd => absurd hd (hempty d).1, fun d hd => absurd hd (hempty d).2⟩,
      fun hok => by cases hok⟩
  | ok lists =>
    obtain ⟨blocks, allows⟩ := lists
    by_cases hfails : InsertFails c.insertFails blocks allows
    · obtain ⟨hblocks, hallows⟩ := hcond.full blocks allows hload hfails
      obtain ⟨n, hn, hlt⟩ := hfails
      have hrun : c.run g = applyGeoipMap c.csv c.config (some n) g := by
        unfold GeoipCall.run
        rw [hn]
      rw [hrun, applyGeoipMap_of_full hload hlt]
      exact ⟨⟨tracks_of_half_written _ hblocks, tracks_of_half_written _ hallows⟩,
        fun hok => by cases hok⟩
    · obtain ⟨hblocks, hallows⟩ := hcond.written blocks allows hload hfails
      have hrun : c.run g = applyGeoipMap.written g blocks allows :=
        applyGeoipMap_of_written hload hfails
      have hexactBlocks := holdsExactly_of_tracks hinv.1 hblocks
      have hexactAllows := holdsExactly_of_tracks hinv.2 hallows
      obtain ⟨hloadBlocks, hloadAllows⟩ := loadGeoipLists_eq_ok hload
      rw [hrun]
      exact ⟨⟨hexactBlocks.tracks, hexactAllows.tracks⟩, fun _ =>
        { blockTries := ⟨blocks, hloadBlocks, hexactBlocks⟩
          allowTries := ⟨allows, hloadAllows, hexactAllows⟩
          blocks := hexactBlocks
          allows := hexactAllows }⟩

theorem geoipTracked_empty : GeoipTracked {} :=
  ⟨fun d hd => absurd hd (CidrTries.not_holds_empty d),
    fun d hd => absurd hd (CidrTries.not_holds_empty d)⟩

/-- After any run in which no call forgets a prefix, the next call that succeeds makes the tries and
the tracked lists exactly those of its configuration. -/
theorem geoip_recovers {calls : List GeoipCall} {g : GeoipLists} {next : GeoipCall}
    (hcond : Along geoipStep ForgetsNothing {} calls) (hrun : exec geoipStep {} calls = some g)
    (hnext : ForgetsNothing g next) (hok : (next.run g).1 = .ok ()) :
    GeoipExact next.csv next.config (next.run g).2 := by
  have hstep : ∀ g c g', GeoipTracked g → ForgetsNothing g c → geoipStep g c = some g' →
      GeoipTracked g' := by
    intro g c g' hI hc h
    cases h
    exact (geoipTracked_run hI hc).1
  have hinv := exec_invariant hstep geoipTracked_empty hcond hrun
  exact (geoipTracked_run hinv hnext).2 hok

instance (old new : List Cidr) : Decidable (NoOtherSpelling old new) :=
  inferInstanceAs (Decidable (∀ c ∈ _, ∀ n ∈ _, ¬ _))

/-- The condition on a call whose files are read and whose insertions all succeed. -/
theorem forgetsNothing_of_written {g : GeoipLists} {c : GeoipCall} {blocks allows : List Cidr}
    (hload : loadGeoipLists c.csv c.config = .ok (blocks, allows)) (hfails : c.insertFails = none)
    (hblocks : NoOtherSpelling g.blocks blocks) (hallows : NoOtherSpelling g.allows allows) :
    ForgetsNothing g c where
  unreadable e h := by
    rw [hload] at h
    cases h
  full b a h hfull := by
    obtain ⟨n, hn, -⟩ := hfull
    rw [hfails] at hn
    cases hn
  written b a h _ := by
    rw [hload] at h
    cases h
    exact ⟨hblocks, hallows⟩

/-- One country in one file. -/
def oneCountry (records : Except String (List (List String))) : GeoipCall :=
  { csv := fun _ => some records
    config :=
      { enabled := true, countryBlocksCsv := some "country.csv", blockCountries := ["XX"]
        defaultAction := "pass" } }

/-- The file becomes unreadable for one call; the network it had before is blocked for ever. -/
theorem unreadable_file_forgets_network :
    ∃ g, exec geoipStep {}
        [oneCountry (.ok [["10.0.0.0/8", "XX"]]), oneCountry (.error "CSV error")] = some g ∧
      ((oneCountry (.ok [])).run g).1 = .ok () ∧
      ¬ GeoipExact (oneCountry (.ok [])).csv (oneCountry (.ok [])).config
        ((oneCountry (.ok [])).run g).2 := by
  refine ⟨_, rfl, rfl, fun h => ?_⟩
  obtain ⟨c, hc, -⟩ := (h.blocks (.fromIpv4 0x0a000000, 8)).1 (by decide)
  cases hc

/-- The file of a country that has one network. -/
def oneNetwork (network : String) : GeoipCall := oneCountry (.ok [[network, "XX"]])

/-- The network becomes a smaller one. -/
theorem geoip_recovers_smaller :
    ∃ g, exec geoipStep {} [oneNetwork "10.0.0.0/8"] = some g ∧
      GeoipExact (oneNetwork "10.0.0.0/16").csv (oneNetwork "10.0.0.0/16").config
        ((oneNetwork "10.0.0.0/16").run g).2 := by
  have hcond : Along geoipStep ForgetsNothing {} [oneNetwork "10.0.0.0/8"] :=
    .cons rfl (forgetsNothing_of_written rfl rfl (by decide) (by decide)) trivial
  have hnext : ForgetsNothing ((oneNetwork "10.0.0.0/8").run {}).2 (oneNetwork "10.0.0.0/16") :=
    forgetsNothing_of_written rfl rfl (by decide) (by decide)
  exact ⟨_, rfl, geoip_recovers hcond rfl hnext rfl⟩

end EShield.Node
