import DomainLens.ScanJobs
import DomainLens.ApiTokens
import DomainLens.BackupCodes
import DomainLens.LoginCalls
import DomainLens.SamlSp
import DomainLens.SignIn
import DomainLens.Scim.RoundTrip
import DomainLens.Scim.Frame
import DomainLens.WhoisBatch.Pacer
import DomainLens.CrtSh
import DomainLens.DnsTools
import DomainLens.Delegation
import DomainLens.ActiveScan.Scope
import DomainLens.ActiveScan.Attest
import DomainLens.ActiveScan.Ceiling
import DomainLens.RiskAcceptance
import DomainLens.RiskAcceptance.Marking
import DomainLens.AuditLog.Tampering
import DomainLens.SafeRedirects
import DomainLens.Scheduler
import DomainLens.RateLimits
import DomainLens.NcscAdvisories
import DomainLens.CveFeed.Mirror
import DomainLens.CveFeed.Overview
import DomainLens.CveFeed.Branches
import DomainLens.CveFeed.FixedIn
import DomainLens.FileScan.Depth
import DomainLens.Verdicts
import DomainLens.CveFeed.FixReleases
import DomainLens.AdvisoryExport
import DomainLens.DomainPortfolio.Operations
import DomainLens.DomainPortfolio.Refusal
import DomainLens.DomainPortfolio.Watch
import DomainLens.DomainPortfolio.Adoption
import DomainLens.MailTest.Verdicts
import DomainLens.Management.Figures
import DomainLens.Management.Organisation
import DomainLens.IpLists
import DomainLens.ScanDiff
import DomainLens.Rdap
import DomainLens.InsightVm
import DomainLens.VulnImports
import DomainLens.DomainPortfolio.Rounds
import DomainLens.Monitors.Due
import DomainLens.Monitors.Silence
import DomainLens.ScanRequests
import DomainLens.Administrators
import DomainLens.Monitors.Baseline
import DomainLens.Settings.ApiKeys
import DomainLens.Settings.ReadBack
import DomainLens.Settings.SharedStore
import DomainLens.DomainPortfolio.Export
import DomainLens.ServiceNow.Again
import DomainLens.Exports
import DomainLens.Settings.PrivateKeys
import DomainLens.JsScan
import DomainLens.LinkCheck.Distance
import DomainLens.LinkCheck.Malformed
import DomainLens.LinkCheck.NormalForm
import DomainLens.MsgFile.Rtf
import DomainLens.MsgFile.Wrapping
import DomainLens.FileScan.Ovba
import DomainLens.FileScan.Literals
import DomainLens.NcscTls.Assess
import DomainLens.WebSecurity.Cookies
import DomainLens.WebSecurity.CspAnalysis
import DomainLens.SecurityChecks.Spf
import DomainLens.SecurityChecks.Takeover
import DomainLens.NcscTls.Order
import DomainLens.Blacklist
import DomainLens.SecurityTxt.Published
import DomainLens.SecurityTxt.Signed
import DomainLens.Evidence
import DomainLens.CveFeed.Pages
import DomainLens.Scheduler.Plan
import DomainLens.WeakAuth
import DomainLens.WhoisBatch.Domains
import DomainLens.DomainPortfolio.Events
import DomainLens.WhoisPort43
import DomainLens.Rapid7Import
import DomainLens.Metrics
import DomainLens.VulnFindings
import DomainLens.Library.Counting
import DomainLens.CertTransparency
import DomainLens.Monitors.Watched
import DomainLens.Library.Since
import DomainLens.ActiveScan.Challenge
import DomainLens.ScanCache
import DomainLens.RiskAcceptance.Origin
