import DocMarkdown.Client.Script
import DocMarkdown.Decimal.Shortest
import DocMarkdown.Main
import DocMarkdown.Markdown.Readings
import DocMarkdown.Proofs.Client.Record
import DocMarkdown.Proofs.Client.Sharing
import DocMarkdown.Proofs.Converter.Bracket
import DocMarkdown.Proofs.Client.Policy
import DocMarkdown.Proofs.Converter.Chunks
import DocMarkdown.Proofs.Converter.Transcript
import DocMarkdown.Proofs.Client.EarlyStop
import DocMarkdown.Proofs.Converter.Flags
import DocMarkdown.Proofs.Converter.Markers
import DocMarkdown.Proofs.Converter.Listings
import DocMarkdown.Proofs.Client.Parameters
import DocMarkdown.Proofs.CommandLine.Contributions
import DocMarkdown.Proofs.Layout.RawTags
import DocMarkdown.Proofs.Markdown.Display
import DocMarkdown.Proofs.Converter.Erasure
import DocMarkdown.Proofs.Converter.Growth
import DocMarkdown.Proofs.Settings.Merged
import DocMarkdown.Proofs.Settings.Unreadable
import DocMarkdown.Proofs.Converter.ByteDocuments
import DocMarkdown.Proofs.Client.Containment
import DocMarkdown.Proofs.Markdown.Unescape
