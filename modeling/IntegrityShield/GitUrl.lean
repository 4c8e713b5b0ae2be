import IntegrityShield.Strings

namespace IntegrityShield.GitUrl

open Strings

/-- The commit-detail endpoint of the GitHub API for a commit of a repository URI:
`https://github.com/user/sample-app.git` becomes
`https://api.github.com/repos/user/sample-app/commits/xxxxx`. -/
def convertToCommitDetailURL (uri commit : String) : String :=
  let replaced := Strings.replace uri ".git" "/commits"
  let replaced1 := Strings.replace replaced "github.com" "api.github.com/repos"
  replaced1 ++ "/" ++ commit

def convertToCommitHistoryURL (uri commit : String) : String :=
  let replaced := Strings.replace uri ".git" "/commits"
  Strings.replace replaced "github.com" "api.github.com/repos"

theorem convertToCommitDetailURL_eq (uri commit : String) :
    convertToCommitDetailURL uri commit = convertToCommitHistoryURL uri commit ++ "/" ++ commit :=
  rfl

theorem replace_git_first (o r s : String) (ho : ¬ contains o ".git")
    (hr : ¬ contains r ".git") :
    Strings.replace ("https://github.com/" ++ o ++ "/" ++ r ++ ".git" ++ s) ".git" "/commits" =
      "https://github.com/" ++ o ++ "/" ++ r ++ "/commits" ++ s := by
  have ho' : ¬ ['.', 'g', 'i', 't'] <:+: o.data := ho
  have hr' : ¬ ['.', 'g', 'i', 't'] <:+: r.data := hr
  apply String.ext
  simp only [data_replace, String.data_append, List.cons_append, List.nil_append,
    List.append_assoc]
  simp (disch := simp) only [replaceFirst_cons_of_no_match]
  rw [replaceFirst_append_sep ho' (by decide)]
  simpa using replaceFirst_append_self "/commits".data hr' (by decide) s.data

theorem replace_host (rest : String) :
    Strings.replace ("https://github.com/" ++ rest) "github.com" "api.github.com/repos" =
      "https://api.github.com/repos/" ++ rest := by
  apply String.ext
  simp only [data_replace, String.data_append, List.cons_append, List.nil_append]
  simp (disch := simp) only [replaceFirst_cons_of_no_match]
  rw [replaceFirst_at_match (by simp)]
  simp

theorem convertToCommitDetailURL_github (o r c : String) (ho : ¬ contains o ".git")
    (hr : ¬ contains r ".git") :
    convertToCommitDetailURL ("https://github.com/" ++ o ++ "/" ++ r ++ ".git") c =
      "https://api.github.com/repos/" ++ o ++ "/" ++ r ++ "/commits/" ++ c := by
  have h := replace_git_first o r "" ho hr
  rw [String.append_empty, String.append_empty] at h
  rw [convertToCommitDetailURL_eq, convertToCommitHistoryURL, h]
  simp only [String.append_assoc, replace_host]
  rfl

theorem convertToCommitDetailURL_sample_app :
    convertToCommitDetailURL "https://github.com/user/sample-app.git" "xxxxx" =
      "https://api.github.com/repos/user/sample-app/commits/xxxxx" :=
  convertToCommitDetailURL_github "user" "sample-app" "xxxxx" (by decide) (by decide)

/-- For a repository named `r₁.gitr₂`, as GitHub Pages sites are, the URL keeps `r₂.git` after
`/commits` and loses the repository's full name. -/
theorem convertToCommitDetailURL_inner_git (o r₁ r₂ c : String) (ho : ¬ contains o ".git")
    (hr : ¬ contains r₁ ".git") :
    convertToCommitDetailURL ("https://github.com/" ++ o ++ "/" ++ (r₁ ++ ".git" ++ r₂) ++ ".git") c =
      "https://api.github.com/repos/" ++ o ++ "/" ++ r₁ ++ "/commits" ++ r₂ ++ ".git/" ++ c := by
  have h := replace_git_first o r₁ (r₂ ++ ".git") ho hr
  rw [convertToCommitDetailURL_eq, convertToCommitHistoryURL]
  simp only [String.append_assoc] at h ⊢
  simp only [h, replace_host, String.append_assoc]
  rfl

theorem convertToCommitDetailURL_pages_repo :
    convertToCommitDetailURL "https://github.com/user/user.github.io.git" "abc123" =
      "https://api.github.com/repos/user/user/commitshub.io.git/abc123" :=
  convertToCommitDetailURL_inner_git "user" "user" "hub.io" "abc123" (by decide) (by decide)

end IntegrityShield.GitUrl
