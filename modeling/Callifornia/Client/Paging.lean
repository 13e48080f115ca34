import Mathlib.Data.List.Basic
import Mathlib.Order.MinMax
import Mathlib.Tactic.Common

/-! # The pages of a call's participants

A call shows its participants a page at a time, in a grid or, beside a presentation, in a rail.
The grid is the one with the best score among those that have room for everybody, and a score
is a floating-point number. Whatever the scores are, every participant is on one page.
-/

namespace Callifornia.Client

/-! ## The layout of a grid -/

section Layout

/-- `f64::max`; a number wins over a NaN. -/
def fmax (first second : Float) : Float :=
  if first.isNaN then second
  else if second.isNaN then first
  else if first < second then second else first

/-- `f64::min`; a number wins over a NaN. -/
def fmin (first second : Float) : Float :=
  if first.isNaN then second
  else if second.isNaN then first
  else if second < first then second else first

def tileGapPx : Float := 14.0

def tileSizeBoost : Float := 1.05

def tileMinWPx : Float := 160.0

def tileMaxWPx : Float := 960.0

def tileMaxHPx : Float := 720.0

def tileAspectWOverH : Float := 16.0 / 9.0

def gridCols : ℕ := 3

def gridRows : ℕ := 2

def tilesPerPage : ℕ := gridCols * gridRows

def arrowSlotPx : Float := 48.0

def rowCountScorePenalty : Float := 1.35

structure ParticipantLayout where
  cols : ℕ
  rows : ℕ
  tileWidth : Float
  tileHeight : Float
  perPage : ℕ
  pageCount : ℕ

/-- A tile's width and height. -/
abbrev TileSize := Float × Float

def tileSize16By9InCell (cellW cellH : Float) : TileSize :=
  let cw := fmax cellW 1.0
  let ch := fmax cellH 1.0
  let maxTw := fmin cw tileMaxWPx
  let maxTh := fmin ch tileMaxHPx
  let tw := fmin maxTw (maxTh * tileAspectWOverH)
  let size : TileSize := (tw, tw / tileAspectWOverH)
  let size := if maxTh < size.2 then (maxTh * tileAspectWOverH, maxTh) else size
  let size := if maxTw < size.1 then (maxTw, maxTw / tileAspectWOverH) else size
  if size.1 < tileMinWPx then
    let tw := fmin tileMinWPx cw
    if ch < tw / tileAspectWOverH then (ch * tileAspectWOverH, ch)
    else (tw, tw / tileAspectWOverH)
  else size

def tileSizeForGrid (availW availH : Float) (cols rows : ℕ) : TileSize :=
  let wRaw := fmax ((availW - (cols - 1).toFloat * tileGapPx) / cols.toFloat) 0.0
  let hRaw := fmax ((availH - (rows - 1).toFloat * tileGapPx) / rows.toFloat) 0.0
  let baseW := (tileSize16By9InCell wRaw hRaw).1
  let tileW := fmin (baseW * tileSizeBoost) wRaw
  let tileH := tileW / tileAspectWOverH
  if hRaw < tileH then (hRaw * tileAspectWOverH, hRaw) else (tileW, tileH)

def singlePageLayoutScore (cols rows count : ℕ) (tileW tileH : Float) : Float :=
  let slots := cols * rows
  let slotFill := count.toFloat / slots.toFloat
  let rowPenalty := rows.toFloat.pow rowCountScorePenalty
  tileW * tileH * slotFill / rowPenalty

/-- A grid with its tiles and its score. -/
structure Candidate where
  cols : ℕ
  rows : ℕ
  tileWidth : Float
  tileHeight : Float
  score : Float

/-- The better of the best grid so far and one with room for `count` tiles. -/
def betterLayout (availW availH : Float) (count : ℕ) (best : Option Candidate)
    (grid : ℕ × ℕ) : Option Candidate :=
  if grid.1 * grid.2 < count then best
  else
    let tile := tileSizeForGrid availW availH grid.1 grid.2
    let score := singlePageLayoutScore grid.1 grid.2 count tile.1 tile.2
    let candidate : Candidate := ⟨grid.1, grid.2, tile.1, tile.2, score⟩
    match best with
    | none => some candidate
    | some chosen =>
        if chosen.score < score ∨ (score - chosen.score).abs < 0.01 ∧
            grid.1 * grid.2 < chosen.cols * chosen.rows then some candidate
        else best

/-- The grids in the order of the two loops, the columns counted first. -/
def grids : List (ℕ × ℕ) :=
  (List.range' 1 gridRows).flatMap fun rows =>
    (List.range' 1 gridCols).map fun cols => (cols, rows)

def bestSinglePageLayout (availW availH : Float) (total : ℕ) : ParticipantLayout :=
  let best := grids.foldl (betterLayout (fmax availW 0.0) (fmax availH 0.0) (max total 1)) none
  match best with
  | some chosen =>
      { cols := chosen.cols
        rows := chosen.rows
        tileWidth := chosen.tileWidth
        tileHeight := chosen.tileHeight
        perPage := tilesPerPage
        pageCount := 1 }
  | none =>
      { cols := 1
        rows := 1
        tileWidth := tileMinWPx
        tileHeight := tileMinWPx / tileAspectWOverH
        perPage := tilesPerPage
        pageCount := 1 }

def pagedGridLayout (availW availH : Float) (total : ℕ) : ParticipantLayout :=
  if total ≤ tilesPerPage then bestSinglePageLayout availW availH total
  else
    let tile := tileSizeForGrid (fmax availW 0.0) (fmax availH 0.0) gridCols gridRows
    { cols := gridCols
      rows := gridRows
      tileWidth := tile.1
      tileHeight := tile.2
      perPage := tilesPerPage
      pageCount := (total + tilesPerPage - 1) / tilesPerPage }

/-- The layout, and whether there are arrows to turn the pages. -/
def resolveParticipantLayout (viewportW viewportH : Float) (total : ℕ) :
    ParticipantLayout × Bool :=
  let vw := fmax viewportW 0.0
  let vh := fmax viewportH 0.0
  let fw := fmax vw 0.0
  let fh := fmax vh 0.0
  if total = 0 then (pagedGridLayout fw fh 1, false)
  else
    let probe := pagedGridLayout fw fh total
    let layout :=
      if probe.pageCount ≤ 1 then pagedGridLayout fw fh total
      else pagedGridLayout (fmax (vw - 2.0 * arrowSlotPx) 0.0) fh total
    (layout, 1 < layout.pageCount)

end Layout

/-! ## The page of a call -/

def railTilesPerPage : ℕ := 4

/-- What the call's view computes from the page that was last turned to. -/
structure PageView where
  pageCount : ℕ
  page : ℕ
  start : ℕ
  stop : ℕ
  showArrows : Bool

def railPageCount (participantCount : ℕ) : ℕ :=
  max (if railTilesPerPage = 0 then 1 else (participantCount - 1) / railTilesPerPage + 1) 1

/-- The page state of `Room`. -/
def roomPage (viewportW viewportH : Float) (participantCount : ℕ) (presentation : Bool)
    (pageIndex : ℕ) : PageView :=
  let resolved := resolveParticipantLayout viewportW viewportH participantCount
  let pageCount := if presentation then railPageCount participantCount else resolved.1.pageCount
  let page := min pageIndex (pageCount - 1)
  if presentation then
    let start := page * railTilesPerPage
    { pageCount, page, start
      stop := min (start + railTilesPerPage) participantCount
      showArrows := 1 < railPageCount participantCount }
  else
    let start := page * resolved.1.perPage
    { pageCount, page, start
      stop := min (start + resolved.1.perPage) participantCount
      showArrows := resolved.2 }

namespace Paging

/-! ## Pages of any size -/

section Pages

variable {α : Type} {per count pages : ℕ}

/-- The first pages show what comes first. -/
theorem flatMap_pages (items : List α) (pages : ℕ) :
    ((List.range pages).flatMap fun page =>
      items.extract (page * per) (min (page * per + per) items.length)) =
        items.take (pages * per) := by
  induction pages with
  | zero => simp
  | succ pages ih =>
      have page : items.extract (pages * per) (min (pages * per + per) items.length) =
          (items.drop (pages * per)).take per := by
        rw [List.extract_eq_take_drop, List.take_eq_take_iff, List.length_drop]
        omega
      rw [List.range_succ, List.flatMap_append, ih, List.flatMap_singleton, page, ← List.take_add,
        Nat.succ_mul]

/-- A position is on one page. -/
theorem existsUnique_page (positive : 0 < per) (enough : count ≤ pages * per) {index : ℕ}
    (inside : index < count) :
    ∃! page, page < pages ∧ page * per ≤ index ∧ index < min (page * per + per) count := by
  refine ⟨index / per, ⟨?_, Nat.div_mul_le_self .., lt_min ?_ inside⟩, ?_⟩
  · exact Nat.div_lt_of_lt_mul (by rw [Nat.mul_comm]; omega)
  · exact Nat.lt_div_mul_add positive
  · rintro page ⟨-, low, high⟩
    refine (Nat.div_eq_of_lt_le low ?_).symm
    rw [Nat.succ_mul]
    exact (lt_min_iff.mp high).1

end Pages

/-- What a number of pages has to satisfy. -/
structure Paginates (per count pages : ℕ) : Prop where
  positive : 0 < per
  enough : count ≤ pages * per
  reached : (pages - 1) * per ≤ count

theorem Paginates.start_le {per count pages page : ℕ} (paginates : Paginates per count pages)
    (last : page ≤ pages - 1) : page * per ≤ count :=
  (Nat.mul_le_mul_right per last).trans paginates.reached

/-! ## The grid -/

section Grid

variable {availW availH : Float} {count total : ℕ}

/-- A grid without room changes nothing; with one that has room there is a best grid, that one
or the best so far. -/
theorem betterLayout_cases (best : Option Candidate) (grid : ℕ × ℕ) :
    (grid.1 * grid.2 < count ∧ betterLayout availW availH count best grid = best) ∨
    (count ≤ grid.1 * grid.2 ∧ ∃ chosen, betterLayout availW availH count best grid = some chosen ∧
      ((chosen.cols = grid.1 ∧ chosen.rows = grid.2) ∨ best = some chosen)) := by
  unfold betterLayout
  split
  · exact .inl ⟨‹_›, rfl⟩
  · refine .inr ⟨not_lt.mp ‹_›, ?_⟩
    cases best with
    | none => exact ⟨_, rfl, .inl ⟨rfl, rfl⟩⟩
    | some chosen =>
        dsimp only
        split
        · exact ⟨_, rfl, .inl ⟨rfl, rfl⟩⟩
        · exact ⟨chosen, rfl, .inr rfl⟩

/-- The best grid has room for everybody. -/
theorem foldl_betterLayout {grids : List (ℕ × ℕ)} {best : Option Candidate}
    (fits : ∀ chosen ∈ best, count ≤ chosen.cols * chosen.rows) :
    ∀ chosen ∈ grids.foldl (betterLayout availW availH count) best,
      count ≤ chosen.cols * chosen.rows := by
  induction grids generalizing best with
  | nil => exact fits
  | cons grid grids ih =>
      refine ih fun chosen found => ?_
      rcases @betterLayout_cases availW availH count best grid with
        ⟨-, same⟩ | ⟨room, other, better, new | old⟩
      · exact fits chosen (same ▸ found)
      · obtain rfl := Option.some.inj (better.symm.trans found)
        rwa [new.1, new.2]
      · obtain rfl := Option.some.inj (better.symm.trans found)
        exact fits other old

/-- There is a best grid as soon as one has room. -/
theorem foldl_betterLayout_isSome {grids : List (ℕ × ℕ)} {best : Option Candidate}
    (room : best.isSome ∨ ∃ grid ∈ grids, count ≤ grid.1 * grid.2) :
    (grids.foldl (betterLayout availW availH count) best).isSome := by
  induction grids generalizing best with
  | nil =>
      refine room.resolve_right ?_
      rintro ⟨grid, member, -⟩
      cases member
  | cons grid grids ih =>
      refine ih ?_
      rcases @betterLayout_cases availW availH count best grid with
        ⟨full, same⟩ | ⟨-, chosen, better, -⟩
      · rw [same]
        refine room.imp_right ?_
        rintro ⟨other, member, fits⟩
        rcases List.mem_cons.mp member with rfl | member
        · exact absurd full (not_lt.mpr fits)
        · exact ⟨other, member, fits⟩
      · exact .inl (Option.isSome_iff_exists.mpr ⟨chosen, better⟩)

/-- A page has room for everybody, as far as six are not too many. -/
theorem bestSinglePageLayout_fits (few : total ≤ tilesPerPage) :
    let layout := bestSinglePageLayout availW availH total
    layout.perPage = tilesPerPage ∧ layout.pageCount = 1 ∧
      total ≤ layout.cols * layout.rows := by
  have largest : (3, 2) ∈ grids := by decide
  have some : (grids.foldl (betterLayout (fmax availW 0.0) (fmax availH 0.0) (max total 1))
      none).isSome :=
    foldl_betterLayout_isSome (.inr ⟨_, largest, max_le few (by decide)⟩)
  obtain ⟨chosen, found⟩ := Option.isSome_iff_exists.mp some
  have fits := foldl_betterLayout (fun _ absent => absurd absent (Option.not_mem_none _)) chosen
    found
  unfold bestSinglePageLayout
  rw [found]
  exact ⟨rfl, rfl, (le_max_left ..).trans fits⟩

theorem pagedGridLayout_fits :
    let layout := pagedGridLayout availW availH total
    layout.perPage = tilesPerPage ∧
      layout.pageCount = (if total ≤ tilesPerPage then 1 else (total + 5) / 6) ∧
      min total tilesPerPage ≤ layout.cols * layout.rows := by
  unfold pagedGridLayout
  split
  · obtain ⟨per, one, fits⟩ := @bestSinglePageLayout_fits availW availH total ‹_›
    exact ⟨per, one, (min_le_left ..).trans fits⟩
  · exact ⟨rfl, rfl, min_le_right ..⟩

/-- The layout of a call is one of its participants, or of one if there is none. -/
theorem resolveParticipantLayout_eq (viewportW viewportH : Float) (total : ℕ) :
    ∃ availW availH, (resolveParticipantLayout viewportW viewportH total).1 =
      pagedGridLayout availW availH (max total 1) := by
  unfold resolveParticipantLayout
  split
  · rename_i none
    exact ⟨_, _, by rw [none]; rfl⟩
  · rename_i some
    rw [max_eq_left (Nat.one_le_iff_ne_zero.mpr some)]
    dsimp only
    split
    · exact ⟨_, _, rfl⟩
    · exact ⟨_, _, rfl⟩

theorem paginates_grid (viewportW viewportH : Float) (count : ℕ) :
    let layout := (resolveParticipantLayout viewportW viewportH count).1
    layout.perPage = tilesPerPage ∧ Paginates tilesPerPage count layout.pageCount ∧
      min count tilesPerPage ≤ layout.cols * layout.rows := by
  obtain ⟨availW, availH, same⟩ := resolveParticipantLayout_eq viewportW viewportH count
  obtain ⟨per, pages, fits⟩ := @pagedGridLayout_fits availW availH (max count 1)
  rw [same]
  refine ⟨per, ?_, (min_le_min_right _ (le_max_left ..)).trans fits⟩
  rw [pages, show tilesPerPage = 6 from rfl]
  constructor
  · decide
  · split <;> omega
  · split <;> omega

theorem paginates_rail (count : ℕ) : Paginates railTilesPerPage count (railPageCount count) := by
  rw [railPageCount, if_neg (by decide), show railTilesPerPage = 4 from rfl]
  constructor
  · decide
  · omega
  · omega

end Grid

/-! ## Nobody is lost -/

/-- **What the pages of a call have to be**: within the list, and together all of it, each
participant on one page and in the order of the list. -/
structure Complete (count : ℕ) (view : ℕ → PageView) : Prop where
  bounds : ∀ pageIndex, (view pageIndex).start ≤ (view pageIndex).stop ∧
    (view pageIndex).stop ≤ count
  unique : ∀ index < count, ∃! page, page < (view 0).pageCount ∧
    (view page).start ≤ index ∧ index < (view page).stop
  inOrder : ∀ participants : List String, participants.length = count →
    ((List.range (view 0).pageCount).flatMap fun page =>
      participants.extract (view page).start (view page).stop) = participants

theorem complete_of_paginates {per count pages : ℕ} (paginates : Paginates per count pages)
    {view : ℕ → PageView} (pageCount : ∀ pageIndex, (view pageIndex).pageCount = pages)
    (start : ∀ pageIndex, (view pageIndex).start = min pageIndex (pages - 1) * per)
    (stop : ∀ pageIndex, (view pageIndex).stop =
      min (min pageIndex (pages - 1) * per + per) count) : Complete count view := by
  have turned {page : ℕ} (inside : page < pages) : min page (pages - 1) = page :=
    min_eq_left (Nat.le_sub_one_of_lt inside)
  refine ⟨fun pageIndex => ?_, fun index inside => ?_, fun participants length => ?_⟩
  · rw [start, stop]
    exact ⟨le_min (Nat.le_add_right ..) (paginates.start_le (min_le_right ..)), min_le_right ..⟩
  · rw [pageCount]
    refine (existsUnique_congr fun page => and_congr_right fun inside => ?_).mp
      (existsUnique_page paginates.positive paginates.enough inside)
    rw [start, stop, turned inside]
  · rw [pageCount]
    have same : ∀ page ∈ List.range pages,
        participants.extract (view page).start (view page).stop =
          participants.extract (page * per) (min (page * per + per) participants.length) := by
      intro page member
      rw [start, stop, turned (List.mem_range.mp member), length]
    rw [List.flatMap_congr same, flatMap_pages]
    exact List.take_of_length_le (length ▸ paginates.enough)

/-- **Paging loses nobody**, in every viewport, and a page of the grid fits its layout. -/
theorem roomPage_complete (viewportW viewportH : Float) (count : ℕ) (presentation : Bool) :
    Complete count (roomPage viewportW viewportH count presentation) ∧
    (presentation = false → ∀ pageIndex,
      let view := roomPage viewportW viewportH count presentation pageIndex
      let layout := (resolveParticipantLayout viewportW viewportH count).1
      view.stop - view.start ≤ layout.cols * layout.rows) := by
  obtain ⟨per, grid, fits⟩ := paginates_grid viewportW viewportH count
  cases presentation with
  | true =>
      refine ⟨?_, fun grid => absurd grid.symm Bool.false_ne_true⟩
      exact complete_of_paginates (paginates_rail count) (fun _ => rfl) (fun _ => rfl) fun _ => rfl
  | false =>
      have start (pageIndex : ℕ) : (roomPage viewportW viewportH count false pageIndex).start =
          min pageIndex ((resolveParticipantLayout viewportW viewportH count).1.pageCount - 1) *
            tilesPerPage := by
        rw [← per]
        rfl
      have stop (pageIndex : ℕ) : (roomPage viewportW viewportH count false pageIndex).stop =
          min (min pageIndex
            ((resolveParticipantLayout viewportW viewportH count).1.pageCount - 1) *
              tilesPerPage + tilesPerPage) count := by
        rw [← per]
        rfl
      refine ⟨complete_of_paginates grid (fun _ => rfl) start stop, fun _ pageIndex => ?_⟩
      refine le_trans ?_ fits
      rw [start, stop]
      omega

end Paging

end Callifornia.Client
