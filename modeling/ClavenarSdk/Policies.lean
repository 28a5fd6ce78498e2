import ClavenarSdk.Url

/-!
# Policies

`policies.rs`. The references that `PoliciesClient` joins to its base URL. The tenant of a scoped
client is a query parameter that is added to the URL after the join.
-/

namespace ClavenarSdk.PoliciesClient

/-- The reference of `tenant_lifecycle`. -/
def tenantLifecycle (tenant : String) : String :=
  s!"admin/tenants/{percentEncode tenant}/lifecycle"

/-- The reference of `provision_tenant`. -/
def provisionTenant (tenant : String) : String :=
  s!"policies/tenant/{percentEncode tenant}/provision"

/-! ### Reads -/

/-- The reference of `get`. -/
def get (name : String) : String := s!"policies/{percentEncode name}"

/-- The reference of `list_versions`. -/
def listVersions (name : String) : String := s!"policies/{percentEncode name}/versions"

/-- The reference of `get_version`. -/
def getVersion (name : String) (version : ℤ) : String :=
  s!"policies/{percentEncode name}/versions/{version}"

/-- The reference of `diff`. -/
def diff (name : String) : String := s!"policies/{percentEncode name}/diff"

/-! ### Writes -/

/-- The reference of `update`. -/
def update (name : String) : String := s!"policies/{percentEncode name}"

/-- The reference of `activate`. -/
def activate (name : String) : String := s!"policies/{percentEncode name}/activate"

/-- The reference of `deactivate`. -/
def deactivate (name : String) : String := s!"policies/{percentEncode name}/deactivate"

/-- The reference of `activate_category`. -/
def activateCategory (domain : String) : String :=
  s!"policies/categories/{percentEncode domain}/activate"

/-- The reference of `deactivate_category`. -/
def deactivateCategory (domain : String) : String :=
  s!"policies/categories/{percentEncode domain}/deactivate"

/-- The reference of `delete`. -/
def delete (name : String) : String := s!"policies/{percentEncode name}"

/-- The reference of `rollback`. -/
def rollback (name : String) (version : ℤ) : String :=
  s!"policies/{percentEncode name}/rollback/{version}"

/-! ### Templates -/

/-- The reference of `get_template`. -/
def getTemplate (name : String) : String := s!"policies/templates/{percentEncode name}"

/-- The reference of `install_template`. -/
def installTemplate (name : String) : String :=
  s!"policies/templates/{percentEncode name}/install"

/-- The reference of `lab_template`. -/
def labTemplate (name : String) : String := s!"policies/templates/{percentEncode name}/lab"

end ClavenarSdk.PoliciesClient
