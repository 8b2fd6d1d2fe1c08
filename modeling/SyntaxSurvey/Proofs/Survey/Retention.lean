import SyntaxSurvey.Proofs.FileSystem.Directories
import SyntaxSurvey.Survey

/-! What a survey does to the file system. It writes images and makes directories, so everything that
was there before stays: directories, links, and files, which may have other bytes by then. -/

namespace SyntaxSurvey

open Number (Quantity)

namespace FileSystem

/-- Writing a file loses nothing. -/
theorem retains_update {fs later : FileSystem} (hHere : fs.Stationed) {path : Path}
    {change : List UInt8 → List UInt8} (hUpdate : fs.update path change = .ok later) :
    fs.Retains later := by
  obtain ⟨place, old, hUpdated, -⟩ := update_ok hHere hUpdate
  exact hUpdated.retains

end FileSystem

/-- Saving an image loses nothing. -/
theorem Image.retains_save (renderer : Renderer) {files : FileSystem} (hHere : files.Stationed)
    (record : Record) (tree : Option Tree) (directory : Path) (suffix : String) (scale : Quantity)
    (took : Duration) :
    files.Retains (save renderer files record tree directory suffix scale took).files := by
  cases tree with
  | none => exact .refl files
  | some tree =>
      dsimp only [save]
      split
      · exact .refl files
      · rename_i later hRender
        rw [render] at hRender
        split at hRender
        · cases hRender
        split at hRender
        · cases hRender
        split at hRender
        · cases hRender
        · rename_i hWrite
          cases hRender
          exact FileSystem.retains_update hHere hWrite

namespace Survey

variable (setting : Setting) (plan : Plan)

theorem retains_visit {s : Survey} (hHere : s.files.Stationed) (path : Path) :
    s.files.Retains (s.visit setting plan path).files := by
  rw [visit]
  split
  · exact .refl s.files
  · rename_i directory hPlan
    rw [illustrate]
    dsimp only
    split
    · exact Image.retains_save setting.renderer hHere _ _ directory _ _ _
    · rw [disown]
      split
      · exact Image.retains_save setting.renderer hHere _ _ directory _ _ _
      · exact Image.retains_save setting.renderer hHere _ _ directory _ _ _

theorem retains_visitAll {s : Survey} (hHere : s.files.Stationed) (paths : List Path) :
    s.files.Retains (s.visitAll setting plan paths).files := by
  rw [visitAll]
  induction paths generalizing s with
  | nil => exact .refl s.files
  | cons path paths ih =>
      have hVisit := retains_visit setting plan hHere path
      exact hVisit.trans (ih (hVisit.stationed hHere))

/-- A survey loses nothing. -/
theorem retains_complete {files : FileSystem} (hHere : files.Stationed) (log : Log)
    (paths : List Path) : files.Retains (complete setting plan log files paths).files := by
  have hBegin : (begin log files).files.Stationed := hHere
  exact retains_visitAll setting plan hBegin paths

/-- Whatever comes of a survey, it retains what was there. -/
theorem retains_run {files : FileSystem} (hHere : files.Stationed)
    (hNormal : ∀ directory, plan.imageDirectory? = some directory → directory.Normal) :
    files.Retains (run setting plan files).files := by
  rw [run]
  split
  · exact .refl files
  · rename_i paths hSources
    dsimp only
    split
    · exact retains_complete setting plan hHere _ paths
    · rename_i directory hPlan
      obtain ⟨hMade, -⟩ := FileSystem.makeDirectories_eq_none_iff hHere (hNormal directory hPlan)
      split
      · rename_i made failure hMake
        rwa [hMake] at hMade
      · rename_i made hMake
        rw [hMake] at hMade
        exact hMade.trans (retains_complete setting plan (hMade.stationed hHere) _ paths)

end Survey

end SyntaxSurvey
